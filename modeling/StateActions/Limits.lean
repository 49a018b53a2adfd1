namespace StateActions.Limits

def profile : String := "development"
def origin : String := "Generated from config/" ++ profile ++ ".toml"

def fileSize : Nat := 10485760
def actionsPerFile : Nat := 100000

-- One action text: bytes, bytes of a string literal, characters of a name, digits, tokens.
def actionLength : Nat := 65536
def stringSize : Nat := 16384
def identifierLength : Nat := 255
def numberDigits : Nat := 4096
def tokenCount : Nat := 16384

def parseDepth : Nat := 256
def contextStack : Nat := 32
def lookahead : Nat := 10

def workerThreads : Nat := 16
def chunkSize : Nat := 256

-- Log events kept in all, kept in a buffer, bytes of a message, events kept for one origin, and the
-- level below which a filter may not be set.
def collectedEvents : Nat := 1000
def bufferedEvents : Nat := 10000
def messageLength : Nat := 4096
def eventsPerSource : Nat := 500
def securityLevel : Nat := 2

def clamp (ceiling value : Nat) : Nat := max 1 (min value ceiling)

theorem one_le_clamp (ceiling value : Nat) : 1 ≤ clamp ceiling value := Nat.le_max_left ..

theorem clamp_le (ceiling value : Nat) (positive : 1 ≤ ceiling) :
    clamp ceiling value ≤ ceiling := by
  unfold clamp; omega

def depth (value : Nat) : Nat := clamp parseDepth value

def threads (value : Nat) : Nat := clamp workerThreads value

end StateActions.Limits
