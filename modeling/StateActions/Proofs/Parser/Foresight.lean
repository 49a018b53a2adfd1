import StateActions.Proofs.Parser.Progress

namespace StateActions

open StateActions.Parser

variable {α β : Type}

-- Two inputs that part at `token`: one goes on with `later` after it, the other has `other` in this
-- place, which begins with the same token or with the end mark.
structure Fork where
  token : Token
  later : List Token
  other : List Token
  inner : token ≠ .eof
  begins : other.head? = some token ∨ other.head? = some .eof

namespace Fork

-- Two parses of the inputs that have come equally far, and not past the token where these part.
structure Twins (fork : Fork) (c c' : Cursor) : Prop where
  depth : c'.depth = c.depth
  maxDepth : c'.maxDepth = c.maxDepth
  ahead : ∃ shared, c.tokens = shared ++ fork.token :: fork.later ∧
    c'.tokens = shared ++ fork.other

-- If the first step does not pass the token, the second one ends in the same way at the same place.
-- The texts of errors are not compared.
def Mirrors (fork : Fork) (p q : Parser α) (c c' : Cursor) : Prop :=
  fork.later.length < (p.runAt c).2.tokens.length →
    (q.runAt c').1.toOption = (p.runAt c).1.toOption ∧ fork.Twins (p.runAt c).2 (q.runAt c').2

variable {fork : Fork} {c c' : Cursor}

section Steps

theorem Twins.current (twins : fork.Twins c c') :
    c'.stream.current = c.stream.current ∨
      (c.tokens = fork.token :: fork.later ∧ c'.stream.current = .eof) := by
  obtain ⟨shared, tokens, tokens'⟩ := twins.ahead
  rw [Cursor.current_eq, Cursor.current_eq, tokens, tokens']
  cases shared with
  | nil =>
    rcases fork.begins with same | ended
    · exact .inl (by rw [List.nil_append, same]; rfl)
    · exact .inr ⟨rfl, by rw [List.nil_append, ended]; rfl⟩
  | cons t rest => exact .inl rfl

theorem Twins.tokens_ne_nil (twins : fork.Twins c c') : c.tokens ≠ [] ∧ c'.tokens ≠ [] := by
  obtain ⟨shared, tokens, tokens'⟩ := twins.ahead
  refine ⟨by simp [tokens], ?_⟩
  intro none
  have empty := (List.append_eq_nil_iff.mp (tokens'.symm.trans none)).2
  rcases fork.begins with same | ended
  · simp [empty] at same
  · simp [empty] at ended

-- The second input is longer or shorter by the same number of tokens all the time.
theorem Twins.lengths (twins : fork.Twins c c') :
    c'.tokens.length + (fork.later.length + 1) = c.tokens.length + fork.other.length := by
  obtain ⟨shared, tokens, tokens'⟩ := twins.ahead
  rw [tokens, tokens', List.length_append, List.length_append, List.length_cons]
  omega

theorem Twins.opened (twins : fork.Twins c c') (context : String) :
    fork.Twins (c.opened context) (c'.opened context) := by
  refine ⟨?_, ?_, ?_⟩
  · rw [Cursor.depth_opened, Cursor.depth_opened, twins.depth]
  · rw [Cursor.maxDepth_opened, Cursor.maxDepth_opened, twins.maxDepth]
  · rw [Cursor.tokens_opened, Cursor.tokens_opened]
    exact twins.ahead

theorem Twins.closed (twins : fork.Twins c c') : fork.Twins c.closed c'.closed := by
  refine ⟨?_, ?_, ?_⟩
  · rw [Cursor.depth_closed, Cursor.depth_closed, twins.depth]
  · rw [Cursor.maxDepth_closed, Cursor.maxDepth_closed, twins.maxDepth]
  · rw [Cursor.tokens_closed, Cursor.tokens_closed]
    exact twins.ahead

theorem Mirrors.of_eq {p p' q q' : Parser α} (same : p.runAt c = p'.runAt c)
    (same' : q.runAt c' = q'.runAt c') (mirrors : fork.Mirrors p' q' c c') :
    fork.Mirrors p q c c' := by
  unfold Mirrors at mirrors ⊢
  rw [same, same']
  exact mirrors

-- A step that passes the token is of no concern.
theorem mirrors_of_passes {p q : Parser α} (tokens : c.tokens = fork.token :: fork.later)
    (passes : Passes 1 p c) : fork.Mirrors p q c c' := by
  intro reached
  unfold Passes at passes
  rw [tokens, List.length_cons] at passes
  omega

theorem mirrors_pure (twins : fork.Twins c c') (a : α) : fork.Mirrors (pure a) (pure a) c c' :=
  fun _ => ⟨rfl, twins⟩

theorem mirrors_fail (twins : fork.Twins c c') (error error' : Cursor → ParseError) :
    fork.Mirrors (fail error : Parser α) (fail error') c c' :=
  fun _ => ⟨rfl, twins⟩

theorem mirrors_bind {p q : Parser α} {f g : α → Parser β} (first : fork.Mirrors p q c c')
    (forward : ∀ a, Forward (f a))
    (second : ∀ a m m', p.runAt c = (.ok a, m) → q.runAt c' = (.ok a, m') → fork.Twins m m' →
      fork.Mirrors (f a) (g a) m m') : fork.Mirrors (p >>= f) (q >>= g) c c' := by
  intro reached
  rcases ran : p.runAt c with ⟨outcome, m⟩
  rcases ran' : q.runAt c' with ⟨outcome', m'⟩
  unfold Mirrors at first
  rw [ran, ran'] at first
  cases outcome with
  | ok a =>
    rw [runAt_bind_ok ran] at reached ⊢
    have fewer := length_le_of_forward (forward a) m
    obtain ⟨same, twins⟩ := first (by simp only; omega)
    cases outcome' with
    | ok b =>
      cases same
      rw [runAt_bind_ok ran']
      exact second a m m' ran ran' twins reached
    | error e => cases same
  | error e =>
    rw [runAt_bind_error ran] at reached ⊢
    obtain ⟨same, twins⟩ := first reached
    cases outcome' with
    | ok b => cases same
    | error e' =>
      rw [runAt_bind_error ran']
      exact ⟨rfl, twins⟩

-- Both look at the same token, unless the second input ends where the first one does not.
theorem mirrors_current {f g : Token → Parser β} (twins : fork.Twins c c')
    (same : ∀ t, c.stream.current = t → fork.Mirrors (f t) (g t) c c')
    (ended : c.tokens = fork.token :: fork.later → fork.Mirrors (f fork.token) (g .eof) c c') :
    fork.Mirrors (current >>= f) (current >>= g) c c' := by
  refine .of_eq (runAt_bind_ok (runAt_current c) f) (runAt_bind_ok (runAt_current c') g) ?_
  rcases twins.current with equal | ⟨tokens, eof⟩
  · rw [equal]
    exact same _ rfl
  · rw [eof, Cursor.current_of_tokens tokens]
    exact ended tokens

theorem mirrors_advance (twins : fork.Twins c c') : fork.Mirrors advance advance c c' := by
  intro reached
  refine ⟨rfl, twins.depth, twins.maxDepth, ?_⟩
  rw [runAt_advance] at reached ⊢
  rw [runAt_advance]
  obtain ⟨shared, tokens, tokens'⟩ := twins.ahead
  cases shared with
  | nil =>
    rw [Cursor.tokens_advance tokens fork.inner] at reached
    exact absurd reached (Nat.lt_irrefl _)
  | cons t rest =>
    rw [List.cons_append] at tokens tokens'
    by_cases eof : t = .eof
    · subst eof
      refine ⟨.eof :: rest, ?_, ?_⟩
      · rw [Cursor.advance_of_eof (Cursor.current_of_tokens tokens), tokens]
        rfl
      · rw [Cursor.advance_of_eof (Cursor.current_of_tokens tokens'), tokens']
        rfl
    · exact ⟨rest, Cursor.tokens_advance tokens eof, Cursor.tokens_advance tokens' eof⟩

theorem current_ne_eof (tokens : c.tokens = fork.token :: fork.later) :
    c.stream.current ≠ .eof := by
  rw [Cursor.current_of_tokens tokens]
  exact fork.inner

-- The second of two tokens may be the one where the inputs part, so a form that is recognised by it
-- has to pass both.
theorem mirrors_atNameThen {token : Token} {f g : Bool → Parser β} (twins : fork.Twins c c')
    (inner : token ≠ .eof)
    (name : ∀ found n, c.stream.current = .identifier n → Passes 1 (f found) c)
    (both : ∀ n rest, c.tokens = .identifier n :: token :: rest → Passes 2 (f true) c)
    (same : ∀ found, fork.Mirrors (f found) (g found) c c') :
    fork.Mirrors (atNameThen token >>= f) (atNameThen token >>= g) c c' := by
  refine .of_eq (runAt_bind_ok (runAt_atNameThen token c) f)
    (runAt_bind_ok (runAt_atNameThen token c') g) ?_
  have alike (equal : (c'.stream.current.isIdentifier && c'.stream.peek 1 = token) =
      (c.stream.current.isIdentifier && c.stream.peek 1 = token)) :
      fork.Mirrors (f (c.stream.current.isIdentifier && c.stream.peek 1 = token))
        (g (c'.stream.current.isIdentifier && c'.stream.peek 1 = token)) c c' := by
    rw [equal]
    exact same _
  obtain ⟨shared, tokens, tokens'⟩ := twins.ahead
  match shared with
  | [] =>
    rw [List.nil_append] at tokens
    cases named : c.stream.current with
    | identifier n =>
      rw [← named]
      exact mirrors_of_passes tokens (name _ n named)
    | _ =>
      rw [← named]
      refine alike ?_
      rcases twins.current with equal | ⟨-, eof⟩
      · rw [equal, named]
        rfl
      · rw [eof, named]
        rfl
  | [t] =>
    rw [List.singleton_append] at tokens tokens'
    have current := Cursor.current_of_tokens tokens
    have current' := Cursor.current_of_tokens tokens'
    have peek : c.stream.peek 1 = fork.token := by rw [Cursor.peek_eq, tokens]; rfl
    have peek' : c'.stream.peek 1 = fork.other.head?.getD .eof := by
      rw [Cursor.peek_eq, tokens', List.getElem?_cons_succ, List.head?_eq_getElem?]
    rcases fork.begins with equal | eof
    · refine alike ?_
      rw [current, current', peek, peek', equal]
      rfl
    · by_cases form : t.isIdentifier = true ∧ fork.token = token
      · obtain ⟨named, rfl⟩ := form
        have found : (c.stream.current.isIdentifier && c.stream.peek 1 = fork.token) = true := by
          rw [current, peek, named]
          simp
        rw [found]
        intro reached
        cases t with
        | identifier n =>
          have passes := both n _ tokens
          unfold Passes at passes
          rw [tokens, List.length_cons, List.length_cons] at passes
          omega
        | _ => cases named
      · refine alike ?_
        rw [current, current', peek, peek', eof]
        have ended : (some Token.eof).getD .eof ≠ token := fun equal => inner equal.symm
        rw [decide_eq_false ended, Bool.and_false]
        cases named : t.isIdentifier with
        | false => rfl
        | true => rw [decide_eq_false fun equal => form ⟨named, equal⟩]; rfl
  | t :: u :: rest =>
    refine alike ?_
    rw [Cursor.current_eq, Cursor.current_eq, Cursor.peek_eq, Cursor.peek_eq, tokens, tokens']
    rfl

theorem mirrors_nested {p q : Parser α} (twins : fork.Twins c c') (context : String)
    (inside : fork.Mirrors p q (c.opened context) (c'.opened context)) :
    fork.Mirrors (nested context p) (nested context q) c c' := by
  intro reached
  rw [runAt_nested] at reached ⊢
  rw [runAt_nested, twins.depth, twins.maxDepth]
  split
  · exact ⟨rfl, twins⟩
  · next shallow =>
    rw [if_neg shallow] at reached
    simp only [Cursor.tokens_closed] at reached
    obtain ⟨same, ends⟩ := inside reached
    exact ⟨same, ends.closed⟩

theorem mirrors_budget {f g : Nat → Parser β}
    (goes : fork.Mirrors (f (2 * c.tokens.length + 2)) (g (2 * c'.tokens.length + 2)) c c') :
    fork.Mirrors (budget >>= f) (budget >>= g) c c' :=
  goes.of_eq (runAt_bind_ok (runAt_budget c) f) (runAt_bind_ok (runAt_budget c') g)

theorem expectToken_mirrors {token : Token} (inner : token ≠ .eof) (twins : fork.Twins c c')
    (committed : Bool) :
    fork.Mirrors (expectToken token committed) (expectToken token committed) c c' := by
  refine mirrors_current twins (fun t _ => ?_) (fun tokens => ?_)
  · split
    · exact mirrors_advance twins
    · exact mirrors_fail twins _ _
  · rw [if_neg inner.symm]
    split
    · exact mirrors_of_passes tokens (passes_advance (current_ne_eof tokens))
    · exact mirrors_fail twins _ _

theorem mirrors_take {f : Token → Parser β} (twins : fork.Twins c c')
    (forms : ∀ t, (t ≠ .eof ∧ ∃ b, f t = advance >>= fun _ => pure b) ∨
      ∃ error, f t = fail error) :
    fork.Mirrors (current >>= f) (current >>= f) c c' := by
  refine mirrors_current twins (fun t _ => ?_) (fun tokens => ?_)
  · rcases forms t with ⟨-, b, takes⟩ | ⟨error, fails⟩
    · rw [takes]
      exact mirrors_bind (mirrors_advance twins) (fun _ => forward_pure b)
        fun _ m m' _ _ twins => mirrors_pure twins b
    · rw [fails]
      exact mirrors_fail twins _ _
  · rcases forms .eof with ⟨inner, -⟩ | ⟨error, fails⟩
    · exact absurd rfl inner
    · rw [fails]
      rcases forms fork.token with ⟨-, b, takes⟩ | ⟨error', fails'⟩
      · rw [takes]
        exact mirrors_of_passes tokens
          ((passes_advance (current_ne_eof tokens)).bind fun _ => forward_pure b)
      · rw [fails']
        exact mirrors_fail twins _ _

theorem expectIdentifier_mirrors (twins : fork.Twins c c') (expected : String) (committed : Bool) :
    fork.Mirrors (expectIdentifier expected committed) (expectIdentifier expected committed) c
      c' := by
  refine mirrors_take twins fun t => ?_
  cases t with
  | identifier name => exact .inl ⟨Token.noConfusion, name, rfl⟩
  | _ => exact .inr ⟨_, rfl⟩

end Steps

section Variables

-- Both have a step for every token that is left to them, so neither ends early.
theorem path_mirrors {steps steps' : Nat} (twins : fork.Twins c c')
    (enough : c.tokens.length ≤ steps) (enough' : c'.tokens.length ≤ steps') :
    fork.Mirrors (path steps) (path steps') c c' := by
  induction steps generalizing c c' steps' with
  | zero => exact absurd (List.length_eq_zero_iff.mp (Nat.le_zero.mp enough)) twins.tokens_ne_nil.1
  | succ steps ih =>
    cases steps' with
    | zero =>
      exact absurd (List.length_eq_zero_iff.mp (Nat.le_zero.mp enough')) twins.tokens_ne_nil.2
    | succ steps' =>
      have rest : ∀ name, Forward (do return name :: (← path steps)) := fun name =>
        (forward_path steps).bind fun names => forward_pure (name :: names)
      have forward := fun (_ : Unit) =>
        (forward_expectIdentifier "identifier after '.'" true).bind rest
      refine mirrors_current twins (fun t current => ?_) (fun tokens => ?_)
      · split
        · next dot =>
          have takes := Cursor.takes_advance (current.trans dot) Token.noConfusion
          refine mirrors_bind (mirrors_advance twins) forward fun _ m m' ran _ twins₁ => ?_
          cases ran
          refine mirrors_bind (expectIdentifier_mirrors twins₁ _ _) rest
            fun name m m' ran _ twins₂ => ?_
          have shorter := length_lt_of_takes
            (takes.trans (expectIdentifier_sound ran)) (List.cons_ne_nil _ _)
          have lengths := twins.lengths
          have lengths₂ := twins₂.lengths
          refine mirrors_bind (ih twins₂ (by omega) (by omega)) (fun names => forward_pure _)
            fun names m m' _ _ twins => mirrors_pure twins _
        · exact mirrors_pure twins []
      · rw [if_neg (fun dot : Token.eof = .dot => nomatch dot)]
        split
        · exact mirrors_of_passes tokens ((passes_advance (current_ne_eof tokens)).bind forward)
        · exact mirrors_pure twins []

theorem variableWithin_mirrors {steps steps' : Nat} (twins : fork.Twins c c')
    (enough : c.tokens.length ≤ steps + 1) (enough' : c'.tokens.length ≤ steps' + 1) :
    fork.Mirrors (variableWithin steps) (variableWithin steps') c c' := by
  refine mirrors_bind (expectIdentifier_mirrors twins _ _)
    (fun name => (forward_path steps).bind fun names => forward_pure _)
    fun name m m' ran _ after => ?_
  have shorter := length_lt_of_takes (expectIdentifier_sound ran) (List.cons_ne_nil _ _)
  have lengths := twins.lengths
  have lengths' := after.lengths
  exact mirrors_bind (path_mirrors after (by omega) (by omega)) (fun names => forward_pure _)
    fun names m m' _ _ twins => mirrors_pure twins _

theorem variableReference_mirrors (twins : fork.Twins c c') :
    fork.Mirrors variableReference variableReference c c' :=
  mirrors_budget (variableWithin_mirrors twins (by omega) (by omega))

end Variables

section Calls

theorem boolean_mirrors (twins : fork.Twins c c') : fork.Mirrors boolean boolean c c' := by
  refine mirrors_take twins fun t => ?_
  cases t with
  | boolean value => exact .inl ⟨Token.noConfusion, .boolean value, rfl⟩
  | _ => exact .inr ⟨_, rfl⟩

theorem number_mirrors (twins : fork.Twins c c') : fork.Mirrors number number c c' := by
  refine mirrors_take twins fun t => ?_
  cases t with
  | number value => exact .inl ⟨Token.noConfusion, .number value, rfl⟩
  | _ => exact .inr ⟨_, rfl⟩

theorem string_mirrors (twins : fork.Twins c c') :
    fork.Mirrors Parser.string Parser.string c c' := by
  refine mirrors_take twins fun t => ?_
  cases t with
  | string content quote => exact .inl ⟨Token.noConfusion, .string content, rfl⟩
  | _ => exact .inr ⟨_, rfl⟩

def Inside (fork : Fork) (list list' : Parser (List Expression)) (c c' : Cursor) : Prop :=
  ∀ m m', fork.Twins m m' → m.tokens.length < c.tokens.length →
    m'.tokens.length < c'.tokens.length → fork.Mirrors list list' m m'

variable {list list' : Parser (List Expression)}

theorem argumentList_mirrors (twins : fork.Twins c c') (mirrors : fork.Mirrors list list' c c') :
    fork.Mirrors (argumentList list) (argumentList list') c c' := by
  refine mirrors_current twins (fun t _ => ?_) (fun tokens => ?_)
  · split
    · exact mirrors_bind (mirrors_advance twins) (fun _ => forward_pure _)
        fun _ m m' _ _ twins => mirrors_pure twins _
    · exact mirrors
  · rw [if_neg (fun closing : Token.eof = .rightParen => nomatch closing)]
    split
    · exact mirrors_of_passes tokens
        ((passes_advance (current_ne_eof tokens)).bind fun _ => forward_pure _)
    · exact mirrors

theorem callWith_mirrors (twins : fork.Twins c c') (forward : Forward list)
    (inside : fork.Inside list list' c c') :
    fork.Mirrors (callWith (argumentList list)) (callWith (argumentList list')) c c' := by
  have forward := forward_argumentList forward
  refine mirrors_bind (expectIdentifier_mirrors twins _ _)
    (fun name => (forward_expectToken _ _).bind fun _ =>
      (forward_nested _ forward).bind fun _ => forward_pure _) fun name m m' ran _ twins₁ => ?_
  refine mirrors_bind (expectToken_mirrors Token.noConfusion twins₁ _)
    (fun _ => (forward_nested _ forward).bind fun _ => forward_pure _)
    fun _ m m' opening _ twins₂ => ?_
  have shorter := length_lt_of_takes ((expectIdentifier_sound ran).trans
    (expectToken_sound Token.noConfusion opening)) (List.cons_ne_nil _ _)
  have lengths := twins.lengths
  have lengths₂ := twins₂.lengths
  refine mirrors_bind (mirrors_nested twins₂ "call" (argumentList_mirrors (twins₂.opened _) ?_))
    (fun _ => forward_pure _) fun _ m m' _ _ twins => mirrors_pure twins _
  refine inside _ _ (twins₂.opened _) ?_ ?_
  · rw [Cursor.tokens_opened]; exact shorter
  · rw [Cursor.tokens_opened]; omega

theorem passes_named_argument {name : String} (steps : Nat) (forward : Forward list)
    (current : c.stream.current = .identifier name) (called : Bool) :
    Passes 1 (if called then callWith (argumentList list)
      else return .variable (← variableWithin steps)) c := by
  split
  · exact passes_callWith (forward_argumentList forward) current
  · exact (passes_variableWithin current steps).bind fun v => forward_pure _

theorem argumentWith_mirrors {steps steps' : Nat} (twins : fork.Twins c c')
    (enough : c.tokens.length ≤ steps + 1) (enough' : c'.tokens.length ≤ steps' + 1)
    (forward : Forward list) (inside : fork.Inside list list' c c') :
    fork.Mirrors (argumentWith steps list) (argumentWith steps' list') c c' := by
  refine mirrors_current twins (fun t _ => ?_) (fun tokens => ?_)
  · cases t with
    | identifier name =>
      refine mirrors_atNameThen twins Token.noConfusion
        (fun found n current => passes_named_argument steps forward current found)
        (fun n rest tokens => passes_callWith_both (forward_argumentList forward) tokens)
        fun called => ?_
      split
      · exact callWith_mirrors twins forward inside
      · exact mirrors_bind (variableWithin_mirrors twins enough enough') (fun _ => forward_pure _)
          fun _ m m' _ _ twins => mirrors_pure twins _
    | number value => exact number_mirrors twins
    | string content quote => exact string_mirrors twins
    | boolean value => exact boolean_mirrors twins
    | _ => exact mirrors_fail twins _ _
  · have current := Cursor.current_of_tokens tokens
    cases seen : fork.token with
    | identifier name =>
      exact mirrors_of_passes tokens (.after (runAt_atNameThen _ c)
        (passes_named_argument steps forward (current.trans seen) _))
    | number value =>
      exact mirrors_of_passes tokens (passes_take (current.trans seen) Token.noConfusion rfl)
    | string content quote =>
      exact mirrors_of_passes tokens (passes_take (current.trans seen) Token.noConfusion rfl)
    | boolean value =>
      exact mirrors_of_passes tokens (passes_take (current.trans seen) Token.noConfusion rfl)
    | _ => exact mirrors_fail twins _ _

theorem arguments_mirrors {steps steps' : Nat} (twins : fork.Twins c c')
    (enough : c.tokens.length ≤ steps) (enough' : c'.tokens.length ≤ steps') :
    fork.Mirrors (arguments steps) (arguments steps') c c' := by
  induction steps generalizing c c' steps' with
  | zero => exact absurd (List.length_eq_zero_iff.mp (Nat.le_zero.mp enough)) twins.tokens_ne_nil.1
  | succ steps ih =>
    cases steps' with
    | zero =>
      exact absurd (List.length_eq_zero_iff.mp (Nat.le_zero.mp enough')) twins.tokens_ne_nil.2
    | succ steps' =>
      have inside : fork.Inside (arguments steps) (arguments steps') c c' :=
        fun m m' twins shorter shorter' => ih twins (by omega) (by omega)
      have others (first : Expression) (u : Unit) : Forward (do
          return first :: (← arguments steps)) :=
        (forward_arguments steps).bind fun others => forward_pure _
      have fewer := length_le_of_forward (forward_argumentWith steps (forward_arguments steps)) c
      refine mirrors_bind
        (argumentWith_mirrors twins (by omega) (by omega) (forward_arguments steps) inside) ?_
        fun first m m' ran _ after => ?_
      · intro first
        refine forward_current.bind fun t => ?_
        cases t with
        | comma => exact forward_advance.bind (others first)
        | rightParen => exact forward_advance.bind fun _ => forward_pure _
        | _ => exact forward_fail _
      · rw [ran] at fewer
        simp only at fewer
        refine mirrors_current after (fun t current => ?_) (fun tokens => ?_)
        · cases t with
          | comma =>
            refine mirrors_bind (mirrors_advance after) (others first) fun _ n n' ran _ last => ?_
            cases ran
            have shorter := length_lt_of_takes (Cursor.takes_advance current Token.noConfusion)
              (List.cons_ne_nil _ _)
            have lengths := twins.lengths
            have lengths' := last.lengths
            exact mirrors_bind (ih last (by omega) (by omega)) (fun _ => forward_pure _)
              fun _ m m' _ _ twins => mirrors_pure twins _
          | rightParen =>
            exact mirrors_bind (mirrors_advance after) (fun _ => forward_pure _)
              fun _ m m' _ _ twins => mirrors_pure twins _
          | _ => exact mirrors_fail after _ _
        · cases fork.token with
          | comma =>
            exact mirrors_of_passes tokens
              ((passes_advance (current_ne_eof tokens)).bind (others first))
          | rightParen =>
            exact mirrors_of_passes tokens
              ((passes_advance (current_ne_eof tokens)).bind fun _ => forward_pure _)
          | _ => exact mirrors_fail after _ _

theorem call_mirrors (twins : fork.Twins c c') : fork.Mirrors call call c c' := by
  refine mirrors_budget (callWith_mirrors twins (forward_arguments _) ?_)
  intro m m' twins shorter shorter'
  exact arguments_mirrors twins (by omega) (by omega)

end Calls

section Arithmetic

open PrecedenceClimbing

structure ClimbsAlike (fork : Fork) (steps : Nat) : Prop where
  unary {c c' : Cursor} {steps' : Nat} (committed : Bool) (twins : fork.Twins c c')
    (enough : EnoughSteps steps c) (enough' : EnoughSteps steps' c') :
    fork.Mirrors (unary steps committed) (unary steps' committed) c c'
  binary {c c' : Cursor} {steps' : Nat} (floor : Nat) (committed : Bool) (twins : fork.Twins c c')
    (enough : 2 * c.tokens.length + 2 ≤ steps) (enough' : 2 * c'.tokens.length + 2 ≤ steps') :
    fork.Mirrors (binary steps floor committed) (binary steps' floor committed) c c'
  climb {c c' : Cursor} {steps' : Nat} (floor : Nat) (left : Arithmetic) (twins : fork.Twins c c')
    (enough : EnoughSteps steps c) (enough' : EnoughSteps steps' c') :
    fork.Mirrors (climb steps floor left) (climb steps' floor left) c c'

theorem unary_mirrors {steps steps' : Nat} (ih : fork.ClimbsAlike steps) (committed : Bool)
    (twins : fork.Twins c c') (enough : EnoughSteps (steps + 1) c)
    (enough' : EnoughSteps (steps' + 1) c') :
    fork.Mirrors (unary (steps + 1) committed) (unary (steps' + 1) committed) c c' := by
  unfold EnoughSteps at enough enough'
  have lengths := twins.lengths
  have negated (u : Unit) : Forward (do
      return Arithmetic.negate (← nested "negation" (unary steps true))) :=
    (forward_nested _ ((forward_climbing steps).1 true)).bind fun _ => forward_pure _
  have closed (inner : Arithmetic) : Forward (do expectToken .rightParen true; return inner) :=
    (forward_expectToken _ _).bind fun _ => forward_pure inner
  have grouped (u : Unit) : Forward (do
      let inner ← nested "parenthesized expression" (binary steps 1 true)
      expectToken .rightParen true
      return inner) :=
    (forward_nested _ ((forward_climbing steps).2.2 1 true)).bind closed
  rw [unary, unary]
  refine mirrors_current twins (fun t current => ?_) (fun tokens => ?_)
  · cases t with
    | minus =>
      refine mirrors_bind (mirrors_advance twins) negated fun _ m m' ran _ twins₁ => ?_
      cases ran
      have shorter := length_lt_of_takes (Cursor.takes_advance current Token.noConfusion)
        (List.cons_ne_nil _ _)
      have lengths₁ := twins₁.lengths
      refine mirrors_bind (mirrors_nested twins₁ "negation" (ih.unary true (twins₁.opened _) ?_ ?_))
        (fun _ => forward_pure _) fun _ m m' _ _ twins => mirrors_pure twins _
      · rw [EnoughSteps, Cursor.tokens_opened]; omega
      · rw [EnoughSteps, Cursor.tokens_opened]; omega
    | number value =>
      exact mirrors_bind (mirrors_advance twins) (fun _ => forward_pure _)
        fun _ m m' _ _ twins => mirrors_pure twins _
    | identifier name =>
      exact mirrors_bind (variableWithin_mirrors twins (by omega) (by omega))
        (fun _ => forward_pure _) fun _ m m' _ _ twins => mirrors_pure twins _
    | leftParen =>
      refine mirrors_bind (mirrors_advance twins) grouped fun _ m m' ran _ twins₁ => ?_
      cases ran
      have shorter := length_lt_of_takes (Cursor.takes_advance current Token.noConfusion)
        (List.cons_ne_nil _ _)
      have lengths₁ := twins₁.lengths
      refine mirrors_bind (mirrors_nested twins₁ "parenthesized expression"
        (ih.binary 1 true (twins₁.opened _) ?_ ?_)) closed fun inner m m' _ _ twins₂ => ?_
      · rw [Cursor.tokens_opened]; omega
      · rw [Cursor.tokens_opened]; omega
      · exact mirrors_bind (expectToken_mirrors Token.noConfusion twins₂ _)
          (fun _ => forward_pure inner) fun _ m m' _ _ twins => mirrors_pure twins inner
    | _ => exact mirrors_fail twins _ _
  · have current := Cursor.current_of_tokens tokens
    have passes := passes_advance (current_ne_eof tokens)
    cases seen : fork.token with
    | minus => exact mirrors_of_passes tokens (passes.bind negated)
    | number value => exact mirrors_of_passes tokens (passes.bind fun _ => forward_pure _)
    | identifier name =>
      exact mirrors_of_passes tokens
        ((passes_variableWithin (current.trans seen) steps).bind fun _ => forward_pure _)
    | leftParen => exact mirrors_of_passes tokens (passes.bind grouped)
    | _ => exact mirrors_fail twins _ _

theorem climb_mirrors {steps steps' : Nat} (ih : fork.ClimbsAlike steps) (floor : Nat)
    (left : Arithmetic) (twins : fork.Twins c c') (enough : EnoughSteps (steps + 1) c)
    (enough' : EnoughSteps (steps' + 1) c') :
    fork.Mirrors (climb (steps + 1) floor left) (climb (steps' + 1) floor left) c c' := by
  unfold EnoughSteps at enough enough'
  have lengths := twins.lengths
  have further (operator : Operator) (right : Arithmetic) :=
    (forward_climbing steps).2.1 floor (.binary operator left right)
  have joined (operator : Operator) (u : Unit) :=
    ((forward_climbing steps).2.2 (operator.precedence + 1) true).bind (further operator)
  rw [climb, climb]
  refine mirrors_current twins (fun t current => ?_) (fun tokens => ?_)
  · cases found : Operator.ofToken? t with
    | none => exact mirrors_pure twins left
    | some operator =>
      simp only
      split
      · exact mirrors_pure twins left
      · refine mirrors_bind (mirrors_advance twins) (joined operator) fun _ m m' ran _ twins₁ => ?_
        cases ran
        have sign := current.trans (Operator.token_of_ofToken? found)
        have shorter := length_lt_of_takes (Cursor.takes_advance sign operator.token_ne_eof)
          (List.cons_ne_nil _ _)
        have lengths₁ := twins₁.lengths
        refine mirrors_bind (ih.binary _ true twins₁ (by omega) (by omega)) (further operator)
          fun right m m' ran _ twins₂ => ?_
        have fewer := length_le_of_forward
          ((forward_climbing steps).2.2 (operator.precedence + 1) true) c.advance
        rw [ran] at fewer
        simp only at fewer
        have lengths₂ := twins₂.lengths
        exact ih.climb floor _ twins₂ (by unfold EnoughSteps; omega) (by unfold EnoughSteps; omega)
  · cases found : Operator.ofToken? fork.token with
    | none => exact mirrors_pure twins left
    | some operator =>
      simp only
      split
      · exact mirrors_pure twins left
      · exact mirrors_of_passes tokens
          ((passes_advance (current_ne_eof tokens)).bind (joined operator))

theorem climbsAlike (steps : Nat) : fork.ClimbsAlike steps := by
  induction steps with
  | zero =>
    refine ⟨?_, ?_, ?_⟩
    · intro _ _ _ _ _ enough; unfold EnoughSteps at enough; omega
    · intro _ _ _ _ _ _ enough; omega
    · intro _ _ _ _ _ _ enough; unfold EnoughSteps at enough; omega
  | succ steps ih =>
    refine ⟨?_, ?_, ?_⟩
    · intro c c' steps' committed twins enough enough'
      cases steps' with
      | zero => unfold EnoughSteps at enough'; omega
      | succ steps' => exact unary_mirrors ih committed twins enough enough'
    · intro c c' steps' floor committed twins enough enough'
      cases steps' with
      | zero => omega
      | succ steps' =>
        rw [PrecedenceClimbing.binary, PrecedenceClimbing.binary]
        refine mirrors_bind (ih.unary committed twins (by unfold EnoughSteps; omega)
          (by unfold EnoughSteps; omega)) (fun left => (forward_climbing steps).2.1 floor left)
          fun left m m' ran _ after => ?_
        have fewer := length_le_of_forward ((forward_climbing steps).1 committed) c
        rw [ran] at fewer
        simp only at fewer
        have lengths := twins.lengths
        have lengths' := after.lengths
        exact ih.climb floor left after (by unfold EnoughSteps; omega)
          (by unfold EnoughSteps; omega)
    · intro c c' steps' floor left twins enough enough'
      cases steps' with
      | zero => unfold EnoughSteps at enough'; omega
      | succ steps' => exact climb_mirrors ih floor left twins enough enough'

theorem rule_mirrors (twins : fork.Twins c c') :
    fork.Mirrors PrecedenceClimbing.rule.parse PrecedenceClimbing.rule.parse c c' :=
  mirrors_budget ((climbsAlike _).binary 1 false twins (Nat.le_refl _) (Nat.le_refl _))

-- The alternative of a lone variable looks at where the input ends. This does not show, for it is
-- the same as arithmetic.
theorem variableOrArithmetic_mirrors (twins : fork.Twins c c') :
    fork.Mirrors variableOrArithmetic variableOrArithmetic c c' := by
  refine .of_eq (variableOrArithmetic_eq c) (variableOrArithmetic_eq c') ?_
  exact mirrors_bind (rule_mirrors twins) (fun tree => forward_pure _)
    fun tree m m' _ _ twins => mirrors_pure twins _

end Arithmetic

section Actions

theorem attributeOf_mirrors (twins : fork.Twins c c') (wanted : String) :
    fork.Mirrors (attributeOf wanted) (attributeOf wanted) c c' := by
  refine mirrors_bind (expectIdentifier_mirrors twins _ _)
    (fun typeName => (forward_expectToken _ _).bind fun _ => forward_named wanted typeName)
    fun typeName m m' _ _ twins => ?_
  refine mirrors_bind (expectToken_mirrors Token.noConfusion twins _)
    (fun _ => forward_named wanted typeName) fun _ m m' _ _ twins => ?_
  refine mirrors_take twins fun t => ?_
  cases t with
  | identifier name =>
    by_cases same : Token.isNamed wanted (.identifier name) = true
    · exact .inl ⟨Token.noConfusion, typeName, if_pos same⟩
    · exact .inr ⟨_, if_neg same⟩
  | _ => exact .inr ⟨_, rfl⟩

theorem readAttribute_mirrors (twins : fork.Twins c c') :
    fork.Mirrors readAttribute readAttribute c c' := by
  have closed (typeName channel : String) : Forward (do
      expectToken .rightParen true
      return Expression.readAttribute typeName channel) :=
    (forward_expectToken _ _).bind fun _ => forward_pure _
  have named (typeName : String) (u : Unit) :=
    (forward_expectIdentifier "channel name" true).bind (closed typeName)
  refine mirrors_bind (attributeOf_mirrors twins _) forward_readChannel
    fun typeName m m' _ _ twins => ?_
  refine mirrors_bind (expectToken_mirrors Token.noConfusion twins _) (named typeName)
    fun _ m m' _ _ twins => ?_
  refine mirrors_bind (expectIdentifier_mirrors twins _ _) (closed typeName)
    fun channel m m' _ _ twins => ?_
  exact mirrors_bind (expectToken_mirrors Token.noConfusion twins _) (fun _ => forward_pure _)
    fun _ m m' _ _ twins => mirrors_pure twins _

theorem writeItem_mirrors (twins : fork.Twins c c') : fork.Mirrors writeItem writeItem c c' := by
  refine mirrors_atNameThen twins Token.noConfusion ?_ (fun n rest => passes_call_both)
    fun called => ?_
  · intro called n current
    split
    · exact passes_call current
    · refine .after (runAt_current c) ?_
      rw [current]
      exact Passes.bind (.after (runAt_budget c) (passes_variableWithin current _))
        fun _ => forward_pure _
  · split
    · exact call_mirrors twins
    · refine mirrors_current twins (fun t _ => ?_) (fun tokens => ?_)
      · split
        · exact mirrors_bind (variableReference_mirrors twins) (fun _ => forward_pure _)
            fun _ m m' _ _ twins => mirrors_pure twins _
        · exact mirrors_fail twins _ _
      · have current := Cursor.current_of_tokens tokens
        cases seen : fork.token with
        | identifier name =>
          refine mirrors_of_passes tokens ?_
          exact Passes.bind (.after (runAt_budget c) (passes_variableWithin (current.trans seen) _))
            fun _ => forward_pure _
        | _ => exact mirrors_fail twins _ _

theorem writeAttribute_mirrors (twins : fork.Twins c c') :
    fork.Mirrors writeAttribute writeAttribute c c' := by
  have closed (typeName channel : String) (item : Expression) : Forward (do
      expectToken .rightParen true
      return Action.writeAttribute typeName channel item) :=
    (forward_expectToken _ _).bind fun _ => forward_pure _
  have inside (typeName channel : String) (u : Unit) :=
    (forward_nested "write item" forward_writeItem).bind (closed typeName channel)
  have separated (typeName channel : String) :=
    (forward_expectToken .comma true).bind (inside typeName channel)
  have named (typeName : String) (u : Unit) :=
    (forward_expectIdentifier "channel name" true).bind (separated typeName)
  refine mirrors_bind (attributeOf_mirrors twins _) forward_writeChannel
    fun typeName m m' _ _ twins => ?_
  refine mirrors_bind (expectToken_mirrors Token.noConfusion twins _) (named typeName)
    fun _ m m' _ _ twins => ?_
  refine mirrors_bind (expectIdentifier_mirrors twins _ _) (separated typeName)
    fun channel m m' _ _ twins => ?_
  refine mirrors_bind (expectToken_mirrors Token.noConfusion twins _) (inside typeName channel)
    fun _ m m' _ _ twins => ?_
  refine mirrors_bind (mirrors_nested twins _ (writeItem_mirrors (twins.opened _)))
    (closed typeName channel) fun item m m' _ _ twins => ?_
  exact mirrors_bind (expectToken_mirrors Token.noConfusion twins _) (fun _ => forward_pure _)
    fun _ m m' _ _ twins => mirrors_pure twins _

theorem callOrArithmetic_mirrors (twins : fork.Twins c c') :
    fork.Mirrors (do if ← atCallStart then call else variableOrArithmetic)
      (do if ← atCallStart then call else variableOrArithmetic) c c' := by
  refine mirrors_atNameThen twins Token.noConfusion ?_ (fun n rest => passes_call_both)
    fun called => ?_
  · intro called n current
    split
    · exact passes_call current
    · exact passes_arithmetic current
  · split
    · exact call_mirrors twins
    · exact variableOrArithmetic_mirrors twins

theorem rightHandSide_mirrors (twins : fork.Twins c c') :
    fork.Mirrors (rightHandSide PrecedenceClimbing.rule) (rightHandSide PrecedenceClimbing.rule) c
      c' := by
  refine mirrors_atNameThen twins Token.noConfusion ?_ ?_ fun ticked => ?_
  · intro ticked n current
    split
    · exact (passes_attributeOf current).bind forward_readChannel
    · refine .after (runAt_current c) ?_
      rw [current]
      refine .after (runAt_atNameThen _ c) ?_
      split
      · exact passes_call current
      · exact passes_arithmetic current
  · intro n rest tokens
    exact (passes_attributeOf_both tokens).bind forward_readChannel
  · split
    · exact readAttribute_mirrors twins
    · refine mirrors_current twins (fun t _ => ?_) (fun tokens => ?_)
      · cases t with
        | boolean value => exact boolean_mirrors twins
        | string content quote => exact string_mirrors twins
        | _ => exact callOrArithmetic_mirrors twins
      · have current := Cursor.current_of_tokens tokens
        cases seen : fork.token with
        | boolean value =>
          exact mirrors_of_passes tokens (passes_take (current.trans seen) Token.noConfusion rfl)
        | string content quote =>
          exact mirrors_of_passes tokens (passes_take (current.trans seen) Token.noConfusion rfl)
        | _ => exact callOrArithmetic_mirrors twins

theorem action_mirrors (twins : fork.Twins c c') :
    fork.Mirrors (action PrecedenceClimbing.rule) (action PrecedenceClimbing.rule) c c' := by
  have assigned (target : String) (u : Unit) :=
    forward_rightHandSide.bind fun value => forward_pure (Action.assignment target value)
  have targeted (target : String) : Forward (do
      if (← current) = .assign then
        advance
        return Action.assignment target (← rightHandSide PrecedenceClimbing.rule)
      else fail (·.mismatch "':=' or attribute tick")) := by
    refine forward_current.bind fun t => ?_
    split
    · exact forward_advance.bind (assigned target)
    · exact forward_fail _
  refine mirrors_atNameThen twins Token.noConfusion ?_ ?_ fun ticked => ?_
  · intro ticked n current
    split
    · exact (passes_attributeOf current).bind forward_writeChannel
    · exact (passes_expectIdentifier current).bind targeted
  · intro n rest tokens
    exact (passes_attributeOf_both tokens).bind forward_writeChannel
  · split
    · exact writeAttribute_mirrors twins
    · refine mirrors_bind (expectIdentifier_mirrors twins _ _) targeted
        fun target m m' _ _ twins => ?_
      refine mirrors_current twins (fun t _ => ?_) (fun tokens => ?_)
      · split
        · refine mirrors_bind (mirrors_advance twins) (assigned target) fun _ m m' _ _ twins => ?_
          exact mirrors_bind (rightHandSide_mirrors twins) (fun _ => forward_pure _)
            fun _ m m' _ _ twins => mirrors_pure twins _
        · exact mirrors_fail twins _ _
      · rw [if_neg (fun assign : Token.eof = .assign => nomatch assign)]
        split
        · exact mirrors_of_passes tokens
            ((passes_advance (current_ne_eof tokens)).bind (assigned target))
        · exact mirrors_fail twins _ _

-- Whether the input ends is asked at the end, so here the second input may not end at the fork.
theorem completeAction_mirrors (same : fork.other.head? = some fork.token)
    (twins : fork.Twins c c') :
    fork.Mirrors (completeAction PrecedenceClimbing.rule) (completeAction PrecedenceClimbing.rule) c
      c' := by
  have ends (parsed : Action) : Forward (do
      if (← get).stream.atEnd then return parsed
      else fail fun c => .trailingInput c.stream.current.describe c.stream.currentSpan) := by
    intro c
    rw [runAt_bind_ok (runAt_get c)]
    split <;> exact ⟨[], .refl c⟩
  refine mirrors_bind (action_mirrors twins) ends fun parsed m m' _ _ twins => ?_
  refine .of_eq (runAt_bind_ok (runAt_get m) _) (runAt_bind_ok (runAt_get m') _) ?_
  have current : m'.stream.current = m.stream.current := by
    obtain ⟨shared, tokens, tokens'⟩ := twins.ahead
    rw [Cursor.current_eq, Cursor.current_eq, tokens, tokens']
    cases shared with
    | nil => rw [List.nil_append, same]; rfl
    | cons t rest => rfl
  unfold Stream.atEnd
  rw [current]
  split
  · exact mirrors_pure twins parsed
  · exact mirrors_fail twins _ _

end Actions

end Fork

section Stopped

variable {c c' next : Cursor} {e : ParseError} {t : Token} {taken later other : List Token}

-- A parse that stopped at `t` stops on every input that is the same up to `t`.
theorem completeAction_same_start
    (ran : (completeAction PrecedenceClimbing.rule).runAt c = (.error e, next))
    (reached : next.tokens = t :: later) (inner : t ≠ .eof) (ahead : c.tokens = taken ++ t :: later)
    (ahead' : c'.tokens = taken ++ t :: other) (depth : c'.depth = c.depth)
    (maxDepth : c'.maxDepth = c.maxDepth) (a : Action) :
    ((completeAction PrecedenceClimbing.rule).runAt c').1 ≠ .ok a := by
  let fork : Fork := ⟨t, later, t :: other, inner, .inl rfl⟩
  have twins : fork.Twins c c' := ⟨depth, maxDepth, taken, ahead, ahead'⟩
  have mirrors := Fork.completeAction_mirrors rfl twins
  unfold Fork.Mirrors at mirrors
  rw [ran] at mirrors
  intro accepted
  have same := (mirrors (by simp only [reached, List.length_cons]; exact Nat.lt_succ_self _)).1
  rw [accepted] at same
  cases same

theorem completeAction_cut_short
    (ran : (action PrecedenceClimbing.rule).runAt c = (.error e, next))
    (reached : next.tokens = t :: later) (inner : t ≠ .eof) (ahead : c.tokens = taken ++ t :: later)
    (ahead' : c'.tokens = taken ++ [.eof]) (depth : c'.depth = c.depth)
    (maxDepth : c'.maxDepth = c.maxDepth) (a : Action) :
    ((completeAction PrecedenceClimbing.rule).runAt c').1 ≠ .ok a := by
  let fork : Fork := ⟨t, later, [.eof], inner, .inr rfl⟩
  have twins : fork.Twins c c' := ⟨depth, maxDepth, taken, ahead, ahead'⟩
  have mirrors := Fork.action_mirrors twins
  unfold Fork.Mirrors at mirrors
  rw [ran] at mirrors
  have same := (mirrors (by simp only [reached, List.length_cons]; exact Nat.lt_succ_self _)).1
  unfold completeAction
  rw [runAt_bind]
  rcases failed : (action PrecedenceClimbing.rule).runAt c' with ⟨outcome, last⟩
  rw [failed] at same
  cases outcome with
  | ok b => cases same
  | error e' => exact fun accepted => nomatch accepted

end Stopped

end StateActions
