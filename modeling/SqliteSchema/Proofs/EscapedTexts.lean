import Mathlib.Data.List.Infix
import SqliteSchema.PlainText

/-!
Texts in double quotes with escapes. Where every escape begins with a backslash, which is escaped
itself as the quote is, and no escape is the beginning of another, a text ends at its closing quote
and can be told from its escapes.
-/
namespace SqliteSchema.Proofs.EscapedTexts

open PlainText

variable {escape : Char → Text} {c d : Char} {left right afterLeft afterRight : Text}

/-- The characters up to the last control character that do not stand for themselves. -/
def escapedChars (escape : Char → Text) : List Char :=
  ((List.range 160).map Char.ofNat).filter fun c => escape c != [c]

structure IsEscape (escape : Char → Text) : Prop where
  plain : ∀ c, 160 ≤ c.toNat → escape c = [c]
  head : ∀ c ∈ escapedChars escape, (escape c).head? = some '\\'
  apart : ∀ c ∈ escapedChars escape, ∀ d ∈ escapedChars escape, escape c <+: escape d → c = d
  backslash : '\\' ∈ escapedChars escape
  quote : '\x22' ∈ escapedChars escape

def isCheckedEscape (escape : Char → Text) : Bool :=
  (escapedChars escape).all (fun c => (escape c).head? == some '\\') &&
    ((escapedChars escape).all fun c => (escapedChars escape).all fun d =>
      !(escape c).isPrefixOf (escape d) || c == d) &&
    (escapedChars escape).contains '\\' && (escapedChars escape).contains '\x22'

/-- The conditions on single escapes are finitely many and can be computed. -/
theorem isEscape_of_isCheckedEscape (hplain : ∀ c, 160 ≤ c.toNat → escape c = [c])
    (h : isCheckedEscape escape = true) : IsEscape escape := by
  simp only [isCheckedEscape, Bool.and_eq_true] at h
  obtain ⟨⟨⟨hhead, hapart⟩, hbackslash⟩, hquote⟩ := h
  refine ⟨hplain, ?_, ?_, List.contains_iff_mem.mp hbackslash, List.contains_iff_mem.mp hquote⟩
  · intro c hc
    exact eq_of_beq (List.all_eq_true.mp hhead c hc)
  · intro c hc d hd hleads
    have hpair := List.all_eq_true.mp (List.all_eq_true.mp hapart c hc) d hd
    rw [List.isPrefixOf_iff_prefix.mpr hleads] at hpair
    exact eq_of_beq hpair

theorem IsEscape.eq_singleton (h : IsEscape escape) (hc : c ∉ escapedChars escape) :
    escape c = [c] := by
  by_cases hsmall : c.toNat < 160
  · have hmem : c ∈ (List.range 160).map Char.ofNat :=
      List.mem_map.mpr ⟨c.toNat, List.mem_range.mpr hsmall, Char.ofNat_toNat c⟩
    by_contra hne
    exact hc (List.mem_filter.mpr ⟨hmem, by simpa using hne⟩)
  · exact h.plain c (Nat.le_of_not_lt hsmall)

theorem IsEscape.eq_of_isPrefix (h : IsEscape escape) (hleads : escape c <+: escape d) :
    c = d := by
  by_cases hc : c ∈ escapedChars escape
  · by_cases hd : d ∈ escapedChars escape
    · exact h.apart c hc d hd hleads
    · obtain ⟨rest, hrest⟩ := List.head?_eq_some_iff.mp (h.head c hc)
      rw [hrest, h.eq_singleton hd, List.cons_prefix_cons] at hleads
      rw [← hleads.1] at hd
      exact absurd h.backslash hd
  · rw [h.eq_singleton hc] at hleads
    by_cases hd : d ∈ escapedChars escape
    · obtain ⟨rest, hrest⟩ := List.head?_eq_some_iff.mp (h.head d hd)
      rw [hrest, List.cons_prefix_cons] at hleads
      rw [hleads.1] at hc
      exact absurd h.backslash hc
    · rw [h.eq_singleton hd, List.cons_prefix_cons] at hleads
      exact hleads.1

/-- An escaped character never looks like the end of its text. -/
theorem IsEscape.exists_eq_cons (h : IsEscape escape) (c : Char) :
    ∃ first rest, escape c = first :: rest ∧ first ≠ '\x22' := by
  by_cases hc : c ∈ escapedChars escape
  · obtain ⟨rest, hrest⟩ := List.head?_eq_some_iff.mp (h.head c hc)
    exact ⟨'\\', rest, hrest, by decide⟩
  · refine ⟨c, [], h.eq_singleton hc, ?_⟩
    rintro rfl
    exact hc h.quote

/-- A text is told by its escapes up to the closing quote, and so is what stands behind the
quote. -/
theorem IsEscape.eq_of_escaped (h : IsEscape escape)
    (heq : left.flatMap escape ++ '\x22' :: afterLeft =
      right.flatMap escape ++ '\x22' :: afterRight) : left = right ∧ afterLeft = afterRight := by
  induction left generalizing right with
  | nil =>
    cases right with
    | nil => exact ⟨rfl, (List.cons.inj heq).2⟩
    | cons d more =>
      obtain ⟨first, rest, hd, hquote⟩ := h.exists_eq_cons d
      rw [List.flatMap_cons, hd] at heq
      exact absurd (List.cons.inj heq).1.symm hquote
  | cons c rest ih =>
    cases right with
    | nil =>
      obtain ⟨first, tail, hc, hquote⟩ := h.exists_eq_cons c
      rw [List.flatMap_cons, hc] at heq
      exact absurd (List.cons.inj heq).1 hquote
    | cons d more =>
      rw [List.flatMap_cons, List.flatMap_cons, List.append_assoc, List.append_assoc] at heq
      have hleft := List.prefix_append (escape c) (rest.flatMap escape ++ '\x22' :: afterLeft)
      have hright := List.prefix_append (escape d) (more.flatMap escape ++ '\x22' :: afterRight)
      -- Both escapes begin the same text, so one of them begins the other.
      obtain rfl : c = d := by
        rcases List.prefix_or_prefix_of_prefix hleft (heq ▸ hright) with hleads | hleads
        · exact h.eq_of_isPrefix hleads
        · exact (h.eq_of_isPrefix hleads).symm
      obtain ⟨rfl, hafter⟩ := ih (List.append_cancel_left heq)
      exact ⟨rfl, hafter⟩

end SqliteSchema.Proofs.EscapedTexts
