import Mathlib.Data.List.Basic
import SqliteSchema.JsonLayout
import SqliteSchema.Proofs.EscapedTexts

/-!
Where the text of a JSON value ends. A string ends at its closing quote, since no escaped
character begins with one, an array and an object end at the line that their delimiter
stands on, and a number ends in front of anything but a digit. So two values laid out in
front of such texts are the same value if the texts are the same, and whatever is put
together from them can be taken apart in one way only.
-/
namespace SqliteSchema.Proofs.JsonTexts

open PlainText JsonLayout EscapedTexts

def EndsNumber (rest : Text) : Prop := ∀ c ∈ rest.head?, c.isDigit = false

def Delimits (left right : Text) : Prop :=
  ∀ afterLeft afterRight, EndsNumber afterLeft → EndsNumber afterRight →
    left ++ afterLeft = right ++ afterRight → left = right

variable {α β : Type}

/-- A value can be told from the text that it is laid out as, whatever follows. -/
def IsReadable (layout : α → Text) : Prop :=
  ∀ left right afterLeft afterRight, EndsNumber afterLeft → EndsNumber afterRight →
    layout left ++ afterLeft = layout right ++ afterRight → left = right

theorem endsNumber_nil : EndsNumber [] := by simp [EndsNumber]

theorem endsNumber_cons {c : Char} (hc : c.isDigit = false) (rest : Text) :
    EndsNumber (c :: rest) := by
  simpa [EndsNumber] using hc

/-- The case of nothing behind either text. -/
theorem IsReadable.injective {layout : α → Text} (h : IsReadable layout) :
    Function.Injective layout := by
  intro left right heq
  exact h left right [] [] endsNumber_nil endsNumber_nil (by rw [heq])

theorem IsReadable.delimits {layout : α → Text} (h : IsReadable layout) (left right : α) :
    Delimits (layout left) (layout right) := by
  intro afterLeft afterRight hleft hright heq
  rw [h left right afterLeft afterRight hleft hright heq]

theorem IsReadable.comp {layout : α → Text} (h : IsReadable layout) {part : β → α}
    (hpart : Function.Injective part) : IsReadable fun value => layout (part value) := by
  intro left right afterLeft afterRight hleft hright heq
  exact hpart (h _ _ afterLeft afterRight hleft hright heq)

theorem isEscape_escapeChar : IsEscape escapeChar := by
  refine isEscape_of_isCheckedEscape ?_ (by decide +kernel)
  intro c hc
  have hcontrol : ¬ c.toNat < 0x20 := by omega
  unfold escapeChar
  split
  case h_8 => exact if_neg hcontrol
  all_goals exact absurd hc (by decide)

theorem isReadable_string : IsReadable string := by
  intro left right afterLeft afterRight _ _ h
  simp only [string, List.cons_append, List.append_assoc, List.cons.injEq, true_and,
    List.nil_append] at h
  exact (isEscape_escapeChar.eq_of_escaped h).1

/-- A number is told in front of every text that does not go on with it. -/
theorem toDigits_eq_of_append {left right : Nat} {afterLeft afterRight : Text}
    (hleft : EndsNumber afterLeft) (hright : EndsNumber afterRight)
    (h : Nat.toDigits 10 left ++ afterLeft = Nat.toDigits 10 right ++ afterRight) :
    left = right := by
  have hdigits : ∀ (value : Nat) (after : Text), EndsNumber after →
      (Nat.toDigits 10 value ++ after).takeWhile Char.isDigit = Nat.toDigits 10 value := by
    intro value after hafter
    rw [List.takeWhile_append_of_pos fun c hc =>
      Nat.isDigit_of_mem_toDigits (by decide) (by decide) hc]
    cases after with
    | nil => simp
    | cons c rest =>
      have hc : c.isDigit = false := hafter c rfl
      simp [hc]
  have hsame := congrArg (List.takeWhile Char.isDigit) h
  rw [hdigits left afterLeft hleft, hdigits right afterRight hright] at hsame
  have hvalue := congrArg (fun digits => Nat.ofDigitChars 10 digits 0) hsame
  simpa [Nat.ofDigitChars_toDigits] using hvalue

theorem exists_toDigits_eq_cons (value : Nat) :
    ∃ first rest, Nat.toDigits 10 value = first :: rest ∧ first.isDigit = true := by
  have hfilled : Nat.toDigits 10 value ≠ [] := Nat.toDigits_ne_nil
  obtain ⟨first, rest, hdigits⟩ := List.exists_cons_of_ne_nil hfilled
  have hfirst : first ∈ Nat.toDigits 10 value := by simp [hdigits]
  exact ⟨first, rest, hdigits, Nat.isDigit_of_mem_toDigits (by decide) (by decide) hfirst⟩

/-- A number that is not negative begins with no sign. -/
theorem toDigits_append_ne_minus (value : Nat) (after rest : Text) :
    Nat.toDigits 10 value ++ after ≠ '-' :: rest := by
  obtain ⟨first, more, hdigits, hfirst⟩ := exists_toDigits_eq_cons value
  rw [hdigits, List.cons_append]
  intro h
  rw [(List.cons.inj h).1] at hfirst
  exact absurd hfirst (by decide)

theorem isReadable_integer : IsReadable integer := by
  intro left right afterLeft afterRight hleft hright h
  match left, right with
  | .ofNat m, .ofNat n => rw [toDigits_eq_of_append hleft hright h]
  | .ofNat m, .negSucc n => exact absurd h (toDigits_append_ne_minus m afterLeft _)
  | .negSucc m, .ofNat n => exact absurd h.symm (toDigits_append_ne_minus n afterRight _)
  | .negSucc m, .negSucc n =>
    have hnumbers := toDigits_eq_of_append hleft hright (List.cons.inj h).2
    rw [Nat.add_right_cancel hnumbers]

theorem isReadable_boolean : IsReadable boolean := by
  intro left right afterLeft afterRight _ _ h
  match left, right with
  | true, true | false, false => rfl
  | true, false => exact absurd (List.cons.inj h).1 (by decide)
  | false, true => exact absurd (List.cons.inj h).1 (by decide)

def IsNeverNull (layout : α → Text) : Prop :=
  ∀ value, ∃ first rest, layout value = first :: rest ∧ first ≠ 'n'

/-- A value is told from null by a layout that never gives this word. -/
theorem isReadable_nullable {layout : α → Text} (h : IsReadable layout)
    (hnull : IsNeverNull layout) : IsReadable (nullable layout) := by
  have hapart : ∀ value (after rest : Text), layout value ++ after ≠ "null".toList ++ rest := by
    intro value after rest heq
    obtain ⟨first, more, hlayout, hfirst⟩ := hnull value
    rw [hlayout] at heq
    exact hfirst (List.cons.inj heq).1
  intro left right afterLeft afterRight hleft hright heq
  match left, right with
  | none, none => rfl
  | none, some value => exact absurd heq.symm (hapart value afterRight afterLeft)
  | some value, none => exact absurd heq (hapart value afterLeft afterRight)
  | some value, some other => rw [h value other afterLeft afterRight hleft hright heq]

theorem isNeverNull_string : IsNeverNull string := by
  intro text
  exact ⟨'\x22', _, rfl, by decide⟩

theorem isNeverNull_integer : IsNeverNull integer := by
  intro value
  cases value with
  | negSucc count => exact ⟨'-', _, rfl, by decide⟩
  | ofNat count =>
    obtain ⟨first, rest, hdigits, hfirst⟩ := exists_toDigits_eq_cons count
    refine ⟨first, rest, hdigits, ?_⟩
    rintro rfl
    exact absurd hfirst (by decide)

def led (separator : Text) (items : List Text) : Text :=
  items.flatMap fun item => separator ++ item

theorem append_intercalate {separator : Text} {items : List Text} (hfilled : items ≠ []) :
    separator ++ separator.intercalate items = led separator items := by
  induction items with
  | nil => exact absurd rfl hfilled
  | cons first rest ih =>
    cases rest with
    | nil => simp [led]
    | cons next more =>
      have hrest := ih (List.cons_ne_nil _ _)
      rw [List.intercalate_cons_cons, List.append_assoc, hrest, ← List.append_assoc]
      rfl

/-- Behind an item stands the comma in front of the next, or the line of the delimiter. -/
theorem endsNumber_led (gap after : Text) (items : List Text) :
    EndsNumber (led (',' :: gap) items ++ '\n' :: after) := by
  cases items with
  | nil => exact endsNumber_cons rfl _
  | cons item rest => exact endsNumber_cons rfl _

/-- Items up to the line of their delimiter can be taken apart if none goes on where another
ends. -/
theorem eq_of_led {gap afterLeft afterRight : Text} {left right : List Text}
    (h : ∀ pair ∈ left.zip right, Delimits pair.1 pair.2)
    (heq : led (',' :: gap) left ++ '\n' :: afterLeft =
      led (',' :: gap) right ++ '\n' :: afterRight) : left = right := by
  induction left generalizing right with
  | nil =>
    cases right with
    | nil => rfl
    | cons other more => exact absurd (List.cons.inj heq).1 (by decide)
  | cons item rest ih =>
    cases right with
    | nil => exact absurd (List.cons.inj heq).1 (by decide)
    | cons other more =>
      have hitem : Delimits item other := h (item, other) (List.mem_cons_self ..)
      have hrest : ∀ pair ∈ rest.zip more, Delimits pair.1 pair.2 := fun pair hpair =>
        h pair (List.mem_cons_of_mem _ hpair)
      simp only [led, List.flatMap_cons, List.append_assoc, List.append_cancel_left_eq] at heq
      obtain rfl := hitem _ _ (endsNumber_led gap afterLeft rest)
        (endsNumber_led gap afterRight more) heq
      rw [ih hrest (List.append_cancel_left heq)]

/-- An empty block is told from the others by its second character. -/
theorem eq_of_block {opening close : Char} (hclose : close ≠ '\n') {depth : Nat}
    {left right : List Text} (h : ∀ pair ∈ left.zip right, Delimits pair.1 pair.2)
    {afterLeft afterRight : Text}
    (heq : block opening close depth left ++ afterLeft =
      block opening close depth right ++ afterRight) : left = right := by
  cases left with
  | nil =>
    cases right with
    | nil => rfl
    | cons other more =>
      have hsecond := (List.cons.inj (List.cons.inj heq).2).1
      exact absurd hsecond hclose
  | cons first rest =>
    cases right with
    | nil =>
      have hsecond := (List.cons.inj (List.cons.inj heq).2).1
      exact absurd hsecond.symm hclose
    | cons other more =>
      simp only [block, List.cons_append, List.append_assoc, List.cons.injEq, true_and] at heq
      have hitems := congrArg (',' :: newline (depth + 1) ++ ·) (List.append_cancel_left heq)
      simp only [← List.append_assoc] at hitems
      rw [append_intercalate (List.cons_ne_nil first rest),
        append_intercalate (List.cons_ne_nil other more)] at hitems
      simp only [List.append_assoc] at hitems
      exact eq_of_led h hitems

/-- Elements are separated by texts that no element goes on with, so their number is told too. -/
theorem isReadable_array {layout : α → Text} (h : IsReadable layout) (depth : Nat) :
    IsReadable fun items : List α => array depth (items.map layout) := by
  intro left right afterLeft afterRight _ _ heq
  have hitems : left.map layout = right.map layout := by
    apply eq_of_block (by decide) ?_ heq
    intro pair hpair
    obtain ⟨hleft, hright⟩ := List.of_mem_zip hpair
    obtain ⟨item, -, hitem⟩ := List.mem_map.mp hleft
    obtain ⟨other, -, hother⟩ := List.mem_map.mp hright
    rw [← hitem, ← hother]
    exact h.delimits item other
  exact h.injective.list_map hitems

theorem isNeverNull_array (part : α → List Text) (depth : Nat) :
    IsNeverNull fun value => array depth (part value) := by
  intro value
  change ∃ first rest, array depth (part value) = first :: rest ∧ first ≠ 'n'
  cases part value with
  | nil => exact ⟨'[', _, rfl, by decide⟩
  | cons item rest => exact ⟨'[', _, rfl, by decide⟩

/-- The key of a member ends at its quote. -/
theorem member_append_inj {left right : String × Text} {afterLeft afterRight : Text}
    (h : member left ++ afterLeft = member right ++ afterRight) :
    left.1 = right.1 ∧ left.2 ++ afterLeft = right.2 ++ afterRight := by
  have hcolon : ∀ rest, EndsNumber (":".toList ++ rest) := endsNumber_cons rfl
  simp only [member, List.append_assoc] at h
  have hkeys := isReadable_string _ _ _ _ (hcolon _) (hcolon _) h
  rw [hkeys] at h
  exact ⟨String.toList_inj.mp hkeys, List.append_cancel_left (List.append_cancel_left h)⟩

theorem member_injective : Function.Injective member := by
  intro left right h
  obtain ⟨hkeys, hvalues⟩ := member_append_inj (congrArg (· ++ []) h)
  exact Prod.ext hkeys (List.append_cancel_right hvalues)

theorem delimits_member {left right : String × Text} (h : Delimits left.2 right.2) :
    Delimits (member left) (member right) := by
  intro afterLeft afterRight hleft hright heq
  obtain ⟨hkeys, hvalues⟩ := member_append_inj heq
  rw [Prod.ext hkeys (h _ _ hleft hright hvalues)]

/-- An object tells its members if no value goes on where another in its place ends. -/
theorem eq_of_object {depth : Nat} {left right : List (String × Text)}
    (h : ∀ pair ∈ left.zip right, Delimits pair.1.2 pair.2.2) {afterLeft afterRight : Text}
    (heq : object depth left ++ afterLeft = object depth right ++ afterRight) : left = right := by
  apply member_injective.list_map
  apply eq_of_block (by decide) ?_ heq
  intro pair hpair
  rw [List.zip_map] at hpair
  obtain ⟨members, hmembers, rfl⟩ := List.mem_map.mp hpair
  exact delimits_member (h members hmembers)

end SqliteSchema.Proofs.JsonTexts
