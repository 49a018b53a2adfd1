import StateActions.Proofs.Token.Spelling

namespace StateActions

namespace Token

def render : List Token → String
  | [] => ""
  | [t] => t.spelling
  | t :: .tick :: rest => t.spelling ++ render (.tick :: rest)
  | t :: u :: rest => t.spelling ++ " " ++ render (u :: rest)

def spaced : List Token → List Token
  | [] => []
  | [t] => [t]
  | t :: .tick :: rest => t :: spaced (.tick :: rest)
  | t :: u :: rest => t :: .space :: spaced (u :: rest)

def gaps (tokens : List Token) : Nat := tokens.tail.countP (· ≠ .tick)

-- Every tick directly follows a name. Nothing is said of what comes after it.
def TicksFollowNames (tokens : List Token) : Prop :=
  ∀ before after, tokens = before ++ .tick :: after →
    ∃ front name, before = front ++ [.identifier name]

variable {tokens : List Token} {t : Token}

theorem toList_render (tokens : List Token) : (render tokens).toList = spell (spaced tokens) := by
  fun_induction spaced tokens with
  | case1 => rfl
  | case2 t => simp [render]
  | case3 t rest ih => rw [render, String.toList_append, ih, spell_cons]
  | case4 t u rest other ih =>
    rw [render, String.toList_append, String.toList_append, ih, spell_cons, spell_cons,
      List.append_assoc]
    · rfl
    · exact other

theorem length_spaced (tokens : List Token) :
    (spaced tokens).length = tokens.length + gaps tokens := by
  fun_induction spaced tokens with
  | case1 => rfl
  | case2 t => rfl
  | case3 t rest ih =>
    simp only [gaps, List.length_cons, List.tail_cons, ih, List.countP_cons]
    simp
    omega
  | case4 t u rest other ih =>
    have apart : u ≠ .tick := fun same => other same
    simp only [gaps, List.length_cons, List.tail_cons, ih, List.countP_cons]
    simp [apart]
    omega

theorem mem_spaced (member : t ∈ spaced tokens) : t ∈ tokens ∨ t = .space := by
  fun_induction spaced tokens with
  | case1 => cases member
  | case2 u => exact .inl member
  | case3 u rest ih =>
    rcases List.mem_cons.mp member with rfl | later
    · exact .inl List.mem_cons_self
    · exact (ih later).imp (List.mem_cons_of_mem _) id
  | case4 u v rest other ih =>
    rcases List.mem_cons.mp member with rfl | member
    · exact .inl List.mem_cons_self
    · rcases List.mem_cons.mp member with rfl | later
      · exact .inr rfl
      · exact (ih later).imp (List.mem_cons_of_mem _) id

theorem filter_spaced (seen : ∀ t ∈ tokens, t.isSignificant = true) :
    (spaced tokens).filter isSignificant = tokens := by
  fun_induction spaced tokens with
  | case1 => rfl
  | case2 t => exact List.filter_eq_self.mpr seen
  | case3 t rest ih =>
    obtain ⟨here, later⟩ := List.forall_mem_cons.mp seen
    rw [List.filter_cons_of_pos here, ih later]
  | case4 t u rest other ih =>
    obtain ⟨here, later⟩ := List.forall_mem_cons.mp seen
    rw [List.filter_cons_of_pos here, List.filter_cons_of_neg (by decide), ih later]

theorem spaced_cons (t : Token) (rest : List Token) : ∃ more, spaced (t :: rest) = t :: more := by
  cases rest with
  | nil => exact ⟨[], rfl⟩
  | cons u rest =>
    by_cases tick : u = .tick
    · subst tick
      exact ⟨_, rfl⟩
    · exact ⟨_, by rw [spaced]; exact tick⟩

theorem adjacent_space (t : Token) : Adjacent t .space where
  words _ := rfl
  tick same := by cases same
  quote single := by cases single

theorem space_adjacent (other : t ≠ .tick) : Adjacent .space t where
  words wordy := by cases wordy
  tick same := absurd same other
  quote _ := rfl

theorem adjacent_tick (name : t.isIdentifier = true) : Adjacent t .tick where
  words _ := rfl
  tick _ := name
  quote single := by cases single

theorem isIdentifier_iff {t : Token} : t.isIdentifier = true ↔ ∃ name, t = .identifier name := by
  cases t <;> simp [isIdentifier]

theorem ticksFollowNames_iff : TicksFollowNames tokens ↔
    (Token.space :: tokens).IsChain fun t u => u = .tick → t.isIdentifier = true := by
  rw [List.isChain_iff_forall_rel_of_append_cons_cons]
  constructor
  · rintro follow t u before after whole rfl
    cases before with
    | nil =>
      obtain ⟨rfl, rfl⟩ := List.cons.inj whole
      obtain ⟨front, name, empty⟩ := follow [] after rfl
      simp at empty
    | cons first before =>
      obtain ⟨rfl, rfl⟩ := List.cons.inj whole
      obtain ⟨front, name, same⟩ := follow (before ++ [t]) after (by simp)
      obtain ⟨-, ended⟩ := List.append_inj' same rfl
      exact isIdentifier_iff.mpr ⟨name, List.singleton_inj.mp ended⟩
  · rintro chain before after rfl
    rcases List.eq_nil_or_concat' before with rfl | ⟨front, t, rfl⟩
    · have first : Token.space :: ([] ++ .tick :: after) = [] ++ .space :: .tick :: after := rfl
      cases chain first rfl
    · have inner : Token.space :: (front ++ [t] ++ .tick :: after) =
          (.space :: front) ++ t :: .tick :: after := by simp
      obtain ⟨name, rfl⟩ := isIdentifier_iff.mp (chain inner rfl)
      exact ⟨front, name, rfl⟩

-- Neighbours that are kept apart do not run into each other, and a tick stands after its name.
theorem isChain_spaced
    (follow : tokens.IsChain fun t u => u = .tick → t.isIdentifier = true) :
    (spaced tokens).IsChain Adjacent := by
  fun_induction spaced tokens with
  | case1 => exact .nil
  | case2 t => exact .singleton t
  | case3 t rest ih =>
    obtain ⟨here, later⟩ := List.isChain_cons_cons.mp follow
    obtain ⟨more, first⟩ := spaced_cons .tick rest
    rw [first] at ih ⊢
    exact .cons_cons (adjacent_tick (here rfl)) (ih later)
  | case4 t u rest other ih =>
    obtain ⟨-, later⟩ := List.isChain_cons_cons.mp follow
    obtain ⟨more, first⟩ := spaced_cons u rest
    rw [first] at ih ⊢
    exact .cons_cons (adjacent_space t) (.cons_cons (space_adjacent other) (ih later))

theorem readable_spaced (follow : TicksFollowNames tokens) : Readable .space (spaced tokens) := by
  have chain := ticksFollowNames_iff.mp follow
  cases tokens with
  | nil => exact .singleton _
  | cons t rest =>
    obtain ⟨here, later⟩ := List.isChain_cons_cons.mp chain
    have inner := isChain_spaced later
    obtain ⟨more, first⟩ := spaced_cons t rest
    rw [first] at inner ⊢
    exact .cons_cons (space_adjacent fun tick => Bool.noConfusion (here tick)) inner

end Token

namespace Tokenization

open Token (render spaced gaps TicksFollowNames)

-- Tokens that are written out with single spaces are cut into the same tokens again, if and only if
-- the text is within the limits of a text and the decimal forms within that of a numeral. The
-- spaces count as raw tokens.
theorem ofText_render (preferences : Preferences.Lexical) {tokens : List Token}
    (seen : ∀ t ∈ tokens, t.isSignificant = true) (formed : ∀ t ∈ tokens, t.WellFormed)
    (follow : TicksFollowNames tokens) :
    ((∃ placed, (ofText preferences (render tokens)).tokens = .ok placed) ↔
      (render tokens).utf8ByteSize ≤ Limits.actionLength ∧
        tokens.length + gaps tokens ≤ Limits.tokenCount ∧ ∀ t ∈ tokens, t.DigitsFit) ∧
    ∀ placed, (ofText preferences (render tokens)).tokens = .ok placed →
      (placed.map (·.token)).filter Token.isSignificant = tokens ++ [.eof] := by
  have text := Token.toList_render tokens
  have readable := Token.readable_spaced follow
  have formed' : ∀ t ∈ spaced tokens, t.WellFormed := by
    intro t member
    rcases Token.mem_spaced member with given | rfl
    · exact formed t given
    · exact trivial
  have limits : ∀ placed, (ofText preferences (render tokens)).tokens = .ok placed →
      (render tokens).utf8ByteSize ≤ Limits.actionLength ∧
        tokens.length + gaps tokens ≤ Limits.tokenCount ∧ ∀ t ∈ tokens, t.DigitsFit := by
    intro placed cut
    obtain ⟨short, few, digits⟩ := Lexer.run_spelled_limits text readable formed' cut
    refine ⟨short, Token.length_spaced tokens ▸ few, fun t member => digits t ?_⟩
    rw [← Token.filter_spaced seen] at member
    exact (List.mem_filter.mp member).1
  have finds : (render tokens).utf8ByteSize ≤ Limits.actionLength ∧
      tokens.length + gaps tokens ≤ Limits.tokenCount ∧ (∀ t ∈ tokens, t.DigitsFit) →
      Lexer.Finds (Lexer.run preferences.detailedMetrics (render tokens)) [] (spaced tokens) := by
    rintro ⟨short, few, digits⟩
    refine Lexer.run_spelled text readable formed' (fun t member => ?_)
      (Token.length_spaced tokens ▸ few) short
    rcases Token.mem_spaced member with given | rfl
    · exact digits t given
    · exact trivial
  refine ⟨⟨fun ⟨placed, cut⟩ => limits placed cut, fun kept => ?_⟩, fun placed cut => ?_⟩
  · obtain ⟨found, stop, cut, -⟩ := finds kept
    exact ⟨_, cut⟩
  · obtain ⟨found, stop, cut', same⟩ := finds (limits placed cut)
    obtain rfl := Except.ok.inj (cut.symm.trans cut')
    rw [List.reverse_nil, List.nil_append, List.map_append, same, List.filter_append,
      Token.filter_spaced seen]
    rfl

theorem ofText_render_quotes :
    let tokens : List Token := [.identifier "T", .tick, .identifier "Read", .string "a b" .single,
      .string "it's" .double, .number 12, .identifier "e", .boolean true, .minus, .number 0]
    render tokens = "T' Read 'a b' \"it's\" 12 e True - 0" ∧
      ∃ placed, (ofText {} (render tokens)).tokens = .ok placed ∧
        (placed.map (·.token)).filter Token.isSignificant = tokens ++ [.eof] := by
  intro tokens
  have follow : TicksFollowNames tokens := Token.ticksFollowNames_iff.mpr (by decide)
  obtain ⟨within, back⟩ := ofText_render {} (by decide : ∀ t ∈ tokens, t.isSignificant = true)
    (by decide) follow
  obtain ⟨placed, cut⟩ := within.mpr
    ⟨by decide, by decide, by simp +decide [tokens, Token.DigitsFit]⟩
  exact ⟨by decide, placed, cut, back placed cut⟩

end Tokenization

end StateActions
