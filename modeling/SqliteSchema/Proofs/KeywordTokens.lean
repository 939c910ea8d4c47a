import Mathlib.Tactic.SplitIfs
import SqliteSchema.ColumnModifiers

/-!
Tokens that spell keywords. A token spells at most one keyword, and a token that
spells a reserved word in any case is reserved, although reserved words are
recognized by their Unicode capitals and keywords by their ASCII letters.
-/
namespace SqliteSchema.Proofs.KeywordTokens

open PlainText ClauseTokens LetterCase ColumnModifiers

theorem toLower_of_isUpper_eq_false {c : Char} (hc : c.isUpper = false) : c.toLower = c := by
  have hrange : ¬(c.val ≥ 'A'.val ∧ c.val ≤ 'Z'.val) := of_decide_eq_false hc
  unfold Char.toLower
  rw [dif_neg hrange]

theorem toLower_inj_of_isUpper {c d : Char} (hc : c.isUpper = true) (hd : d.isUpper = true)
    (h : c.toLower = d.toLower) : c = d := by
  have hcapital : c.val ≥ 'A'.val ∧ c.val ≤ 'Z'.val := of_decide_eq_true hc
  have hother : d.val ≥ 'A'.val ∧ d.val ≤ 'Z'.val := of_decide_eq_true hd
  unfold Char.toLower at h
  rw [dif_pos hcapital, dif_pos hother] at h
  have hval := congrArg Char.val h
  simp only [UInt32.add_left_inj] at hval
  exact Char.ext hval

/-- What holds of every character below a bound, checked one by one, holds of all of them. -/
theorem forall_of_toNat_lt {bound : Nat} (P : Char → Prop) (h : ∀ n < bound, P (Char.ofNat n))
    {c : Char} (hc : c.toNat < bound) : P c := by
  have hchar := h c.toNat hc
  rwa [Char.ofNat_toNat] at hchar

theorem forall_of_isAlpha (P : Char → Prop)
    (h : ∀ n < 123, (Char.ofNat n).isAlpha = true → P (Char.ofNat n)) {c : Char}
    (hc : c.isAlpha = true) : P c := by
  have hlast : c.toNat < 123 := by
    have hle : c.val.toNat ≤ 122 := by
      rcases Bool.or_eq_true_iff.mp hc with hupper | hlower
      · exact Nat.le_trans (of_decide_eq_true hupper).2 (by decide)
      · exact of_decide_eq_true (Bool.and_eq_true_iff.mp hlower).2
    rw [Char.toNat_val] at hle
    omega
  exact forall_of_toNat_lt (fun c => c.isAlpha = true → P c) h hlast hc

theorem forall_of_isDigit (P : Char → Prop)
    (h : ∀ n < 58, (Char.ofNat n).isDigit = true → P (Char.ofNat n)) {c : Char}
    (hc : c.isDigit = true) : P c := by
  have hlast : c.toNat < 58 := by
    have hle : c.val.toNat ≤ 57 := of_decide_eq_true (Bool.and_eq_true_iff.mp hc).2
    rw [Char.toNat_val] at hle
    omega
  exact forall_of_toNat_lt (fun c => c.isDigit = true → P c) h hlast hc

/-- The capitals of a letter are found from either of its forms. -/
theorem capitalsOf_of_isUpper {letter : Char} (h : letter.isUpper = true) :
    capitalsOf letter = [letter] ∧ capitalsOf letter.toLower = [letter] := by
  have halpha : letter.isAlpha = true := Bool.or_eq_true_iff.mpr (.inl h)
  exact forall_of_isAlpha (fun c => c.isUpper = true → capitalsOf c = [c] ∧
    capitalsOf c.toLower = [c]) (by decide +kernel) halpha h

theorem capitalsOf_of_toLower_eq {c letter : Char} (h : c.toLower = letter.toLower)
    (hletter : letter.isUpper = true) : capitalsOf c = [letter] := by
  obtain ⟨hcapital, hsmall⟩ := capitalsOf_of_isUpper hletter
  cases hc : c.isUpper with
  | true => rwa [toLower_inj_of_isUpper hc hletter h]
  | false => rwa [← h, toLower_of_isUpper_eq_false hc] at hsmall

/-- A text that has the letters of a word in capitals has that word for its capitals. -/
theorem capitals_of_sameLetters {text word : Text} (h : sameLetters text word = true)
    (hword : ∀ letter ∈ word, letter.isUpper = true) : capitals text = word := by
  induction word generalizing text with
  | nil =>
    have hempty : text = [] := by simpa [sameLetters] using h
    rw [hempty]
    rfl
  | cons letter more ih =>
    cases text with
    | nil => simp [sameLetters] at h
    | cons c rest =>
      simp only [sameLetters, List.map_cons, beq_iff_eq, List.cons.injEq] at h
      obtain ⟨hfirst, hrest⟩ := h
      have hcapitals := capitalsOf_of_toLower_eq hfirst (hword letter (List.mem_cons_self ..))
      have hmore : capitals rest = more := by
        apply ih (beq_iff_eq.mpr hrest)
        intro d hd
        exact hword d (List.mem_cons_of_mem _ hd)
      rw [capitals, List.flatMap_cons, hcapitals]
      exact congrArg (List.cons letter) hmore

theorem isUpper_of_mem_reservedWords {word : String} (h : word ∈ reservedWords) :
    ∀ letter ∈ word.toList, letter.isUpper = true := by
  have hall : ∀ word ∈ reservedWords, word.toList.all Char.isUpper = true := by decide +kernel
  simpa using hall word h

variable {token : Token}

theorem isReserved_of_spells {keyword : String} (hkeyword : keyword ∈ reservedWords)
    (h : token.spells keyword = true) : isReserved token = true := by
  simp only [Token.spells, Bool.and_eq_true] at h
  have hcapitals := capitals_of_sameLetters h.2 (isUpper_of_mem_reservedWords hkeyword)
  simp only [isReserved, h.1, Bool.true_and, List.any_eq_true, beq_iff_eq]
  exact ⟨keyword, hkeyword, hcapitals⟩

theorem spells_of_not_isReserved (h : isReserved token = false) {keyword : String}
    (hkeyword : keyword ∈ reservedWords) : token.spells keyword = false := by
  cases hspells : token.spells keyword with
  | false => rfl
  | true => rw [isReserved_of_spells hkeyword hspells] at h; exact h

theorem spells_of_kind_ne (h : token.kind ≠ .word) (keyword : String) :
    token.spells keyword = false := by
  simp [Token.spells, h]

/-- A token that spells one keyword spells no other. -/
theorem spells_of_spells {keyword other : String} (h : token.spells keyword = true)
    (hother : sameLetters keyword.toList other.toList = false) : token.spells other = false := by
  simp only [Token.spells, sameLetters, Bool.and_eq_true, beq_iff_eq] at h hother ⊢
  rw [h.2, hother, Bool.and_false]

/-- What a keyword spells is settled by its letters. -/
theorem spells_eq {keyword : String} (h : token.spells keyword = true) (other : String) :
    token.spells other = sameLetters keyword.toList other.toList := by
  cases hother : sameLetters keyword.toList other.toList with
  | false => exact spells_of_spells h hother
  | true =>
    simp only [Token.spells, sameLetters, Bool.and_eq_true, beq_iff_eq] at h hother ⊢
    exact ⟨h.1, h.2.trans hother⟩

end SqliteSchema.Proofs.KeywordTokens
