import StateActions.Proofs.Token.LexicalGrammar

namespace StateActions

namespace Position

theorem offset_advance_lt (p : Position) (c : Char) : p.offset < (p.advance c).offset := by
  unfold advance
  split
  · exact Nat.lt_succ_self _
  · exact Nat.lt_add_of_pos_right c.utf8Size_pos

theorem offset_advanceList_le (p : Position) (text : List Char) :
    p.offset ≤ (p.advanceList text).offset := by
  induction text generalizing p with
  | nil => exact Nat.le_refl _
  | cons c rest ih => exact (Nat.le_of_lt (p.offset_advance_lt c)).trans (ih (p.advance c))

theorem offset_advanceList_lt (p : Position) {text : List Char} (filled : text ≠ []) :
    p.offset < (p.advanceList text).offset := by
  obtain ⟨c, rest, rfl⟩ := List.exists_cons_of_ne_nil filled
  exact (p.offset_advance_lt c).trans_le ((p.advance c).offset_advanceList_le rest)

end Position

namespace Form

variable {start : Position} {forms : List Form}

theorem Splits.text_ne_nil {afterName : Bool} {text : List Char}
    (splits : Splits afterName text forms) : ∀ f ∈ forms, f.text ≠ [] := by
  intro f member
  obtain ⟨afterName, formed, -⟩ := splits.formed f member
  exact formed.text_ne_nil

theorem offset_le_of_mem_layOut {t : PlacedToken} (member : t ∈ layOut start forms) :
    start.offset ≤ t.span.start.offset := by
  induction forms generalizing start with
  | nil =>
    obtain rfl := List.mem_singleton.mp member
    exact Nat.le_refl _
  | cons f forms ih =>
    rcases List.mem_cons.mp member with rfl | later
    · exact Nat.le_refl _
    · exact (start.offset_advanceList_le f.text).trans (ih later)

theorem layOut_increasing (filled : ∀ f ∈ forms, f.text ≠ []) :
    (layOut start forms).Pairwise (·.span.start.offset < ·.span.start.offset) := by
  induction forms generalizing start with
  | nil => exact List.pairwise_singleton _ _
  | cons f forms ih =>
    obtain ⟨first, others⟩ := List.forall_mem_cons.mp filled
    refine List.pairwise_cons.mpr ⟨fun t later => ?_, ih others⟩
    exact (start.offset_advanceList_lt first).trans_le (offset_le_of_mem_layOut later)

end Form

namespace Lexer

variable {detailed : Bool} {source : String} {tokens : List PlacedToken}

theorem run_increasing (ok : (run detailed source).tokens = .ok tokens) :
    tokens.Pairwise (·.span.start.offset < ·.span.start.offset) := by
  obtain ⟨-, forms, splits, -, rfl⟩ := run_splits ok
  exact Form.layOut_increasing splits.text_ne_nil

-- No two tokens of a text have one span, and leaving out some of them changes nothing about it.
theorem span_index_inj (ok : (run detailed source).tokens = .ok tokens)
    {kept : List PlacedToken} (sub : kept.Sublist tokens) {j k : Nat} {t u : PlacedToken}
    (first : kept[j]? = some t) (second : kept[k]? = some u) (same : t.span = u.span) : j = k := by
  obtain ⟨inJ, rfl⟩ := List.getElem?_eq_some_iff.mp first
  obtain ⟨inK, rfl⟩ := List.getElem?_eq_some_iff.mp second
  have increasing := List.pairwise_iff_getElem.mp ((run_increasing ok).sublist sub)
  rcases Nat.lt_trichotomy j k with before | here | after
  · have less := increasing j k inJ inK before
    rw [same] at less
    exact absurd less (Nat.lt_irrefl _)
  · exact here
  · have less := increasing k j inK inJ after
    rw [same] at less
    exact absurd less (Nat.lt_irrefl _)

end Lexer

end StateActions
