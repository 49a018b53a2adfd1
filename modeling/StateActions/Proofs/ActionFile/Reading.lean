import StateActions.ActionFile.Basic

namespace StateActions

def actionTexts (source : String) : List String :=
  (((Text.lines source.toList).map Text.trim).filter fun line =>
    !line.isEmpty && line.head? != some '#').map String.ofList

-- The bytes at `path` are the UTF-8 form of `source`, and neither they nor the actions in it are
-- too few or too many.
structure ActionFile.Readable (host : Host) (path source : String) : Prop where
  present : host path = .ok (.ofBytes source.toUTF8)
  filled : source.toUTF8.size ≠ 0
  small : source.toUTF8.size ≤ Limits.fileSize
  few : (actionTexts source).length ≤ Limits.actionsPerFile

-- The length that is told of a file is the number of its bytes.
def Host.Measured (host : Host) : Prop :=
  ∀ path length bytes, host path = .ok (.file length (.ok bytes)) → length = bytes.size

namespace Entry

def ofLines (number : Nat) (lines : List (List Char)) : List Entry :=
  (lines.zipIdx number).filterMap fun line => ofLine? line.2 line.1

theorem text_ofLine? (number : Nat) (line : List Char) :
    (ofLine? number line).map (·.text) =
      if !(Text.trim line).isEmpty && (Text.trim line).head? != some '#' then
        some (String.ofList (Text.trim line))
      else none := by
  unfold ofLine?
  split
  · next blank => rw [blank]; rfl
  · next comment => rw [comment]; rfl
  · next filled other =>
    cases trimmed : Text.trim line with
    | nil => exact absurd trimmed filled
    | cons c more =>
      have kept : c ≠ '#' := by
        rintro rfl
        exact other more trimmed
      simp [kept]

theorem texts_ofLines (number : Nat) (lines : List (List Char)) :
    (ofLines number lines).map (·.text) =
      ((lines.map Text.trim).filter fun line =>
        !line.isEmpty && line.head? != some '#').map String.ofList := by
  induction lines generalizing number with
  | nil => rfl
  | cons line rest ih =>
    have here := text_ofLine? number line
    have later := ih (number + 1)
    rw [ofLines] at later ⊢
    rw [List.zipIdx_cons, List.filterMap_cons, List.map_cons, List.filter_cons]
    split at here
    · next kept =>
      obtain ⟨e, found, text⟩ := Option.map_eq_some_iff.mp here
      rw [found, if_pos kept, List.map_cons, List.map_cons, text, later]
    · next dropped =>
      rw [Option.map_eq_none_iff.mp here, if_neg dropped, later]

theorem ofLines_cons (number : Nat) (line : List Char) (rest : List (List Char)) :
    ofLines number (line :: rest) =
      (ofLine? number line).toList ++ ofLines (number + 1) rest := by
  unfold ofLines
  rw [List.zipIdx_cons, List.filterMap_cons]
  cases ofLine? number line <;> rfl

-- The entries are counted one by one, so the first one too many is the one after the last allowed.
theorem foldlM_addLine {entries : Array Entry} (few : entries.size ≤ Limits.actionsPerFile)
    (number : Nat) (lines : List (List Char)) :
    (lines.zipIdx number).foldlM addLine entries =
      if entries.size + (ofLines number lines).length ≤ Limits.actionsPerFile then
        .ok (entries ++ (ofLines number lines).toArray)
      else .error (.tooManyActions (Limits.actionsPerFile + 1) Limits.actionsPerFile) := by
  induction lines generalizing number entries with
  | nil => simp [ofLines, few, pure, Except.pure]
  | cons line rest ih =>
    rw [List.zipIdx_cons, List.foldlM_cons, ofLines_cons, addLine]
    cases ofLine? number line with
    | none => exact ih few (number + 1)
    | some entry =>
      rw [Option.toList_some, List.length_append, List.length_singleton, ← Nat.add_assoc]
      by_cases full : entries.size ≥ Limits.actionsPerFile
      · have exact : entries.size = Limits.actionsPerFile := Nat.le_antisymm few full
        rw [if_neg (by omega), ← exact]
        simp only [if_pos (Nat.le_refl _)]
        rfl
      · have same : entries.push entry ++ (ofLines (number + 1) rest).toArray =
            entries ++ ([entry] ++ ofLines (number + 1) rest).toArray := by simp
        have room : (entries.push entry).size ≤ Limits.actionsPerFile := by
          rw [Array.size_push]
          omega
        have more := ih room (number + 1)
        rw [Array.size_push, same] at more
        simp only [if_neg full]
        exact more

theorem extract_eq (source : String) :
    extract source =
      if (ofLines 1 (Text.lines source.toList)).length ≤ Limits.actionsPerFile then
        .ok (ofLines 1 (Text.lines source.toList))
      else .error (.tooManyActions (Limits.actionsPerFile + 1) Limits.actionsPerFile) := by
  have none : (#[] : Array Entry).size ≤ Limits.actionsPerFile := Nat.zero_le _
  have whole := foldlM_addLine none 1 (Text.lines source.toList)
  rw [List.size_toArray, List.length_nil, Nat.zero_add] at whole
  rw [extract, whole]
  split
  · exact congrArg Except.ok (by simp)
  · rfl

theorem extract_eq_ok_iff {source : String} {entries : List Entry} :
    extract source = .ok entries ↔ entries = ofLines 1 (Text.lines source.toList) ∧
      (actionTexts source).length ≤ Limits.actionsPerFile := by
  have count : (actionTexts source).length = (ofLines 1 (Text.lines source.toList)).length := by
    rw [actionTexts, ← texts_ofLines 1, List.length_map]
  rw [extract_eq, count]
  split
  · next few => simp [few, eq_comm]
  · next many => simp [many]

end Entry

namespace ActionFile

variable {host : Host} {path source : String}

theorem decodeUtf8_eq_ok_iff {content : ByteArray} :
    Text.decodeUtf8 content = .ok source ↔ content = source.toUTF8 := by
  unfold Text.decodeUtf8 String.fromUTF8?
  constructor
  · intro decoded
    split at decoded
    · next text found =>
      cases decoded
      split at found
      · cases found
        rfl
      · cases found
    · cases decoded
  · rintro rfl
    rw [String.toUTF8_eq_toByteArray, dif_pos source.isValidUTF8]
    rfl

theorem read_of_readable (readable : Readable host path source) :
    ∃ length f, read host path = .ok (length, f) ∧ f.entries.map (·.text) = actionTexts source := by
  have found := Entry.extract_eq_ok_iff.mpr ⟨rfl, readable.few⟩
  have decoded := decodeUtf8_eq_ok_iff.mpr (rfl : source.toUTF8 = source.toUTF8)
  let lines := Text.lines source.toList
  refine ⟨source.utf8ByteSize,
    ⟨path, source.toUTF8.size, lines.length, Entry.ofLines 1 lines⟩, ?_, Entry.texts_ofLines 1 lines⟩
  simp only [read, readable.present, FileNode.ofBytes, Nat.not_lt.mpr readable.small,
    readable.filled, if_false, ofContent, decoded, found, lines]

theorem readable_of_read (measured : host.Measured) {length : Nat} {f : ActionFile}
    (done : read host path = .ok (length, f)) :
    ∃ source, Readable host path source ∧ f.entries.map (·.text) = actionTexts source := by
  unfold read at done
  split at done
  · cases done
  · cases done
  · next size content present =>
    split at done
    · cases done
    · next small =>
      split at done
      · cases done
      · next filled =>
        split at done
        · cases done
        · next bytes =>
          obtain rfl := measured path size bytes present
          unfold ofContent at done
          split at done
          · cases done
          · next source decoded =>
            split at done
            · cases done
            · next entries found =>
              cases done
              cases decodeUtf8_eq_ok_iff.mp decoded
              obtain ⟨rfl, few⟩ := Entry.extract_eq_ok_iff.mp found
              exact ⟨source, ⟨present, filled, Nat.not_lt.mp small, few⟩,
                Entry.texts_ofLines 1 _⟩

end ActionFile

end StateActions
