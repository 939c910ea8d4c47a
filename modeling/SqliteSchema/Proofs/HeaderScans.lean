import SqliteSchema.TableDefinitions
import SqliteSchema.Proofs.HeaderNames
import SqliteSchema.Proofs.TokenScans

/-!
Headers seen by the scan for delimiters. The keywords of a header and the blanks
between them leave the scan where it starts, and a name takes it outside quotes to the
end of the name, so that what follows is scanned as if it stood alone. Only a name in
brackets can fail to end there: the header reads it up to the first closing bracket,
while the scan takes two closing brackets for one that is content.
-/
namespace SqliteSchema.Proofs.HeaderScans

open PlainText Quoting DelimiterScan ClauseSplitting ClauseTokens StatementHeaders
  TableDefinitions BalancedTexts KeywordTokens QuotedRuns HeaderNames TokenScans

/-- A text in front of which a scan is outside quotes. A delimiter just passed has ended
its run unless the text repeats it. -/
def isOutside (scan : Scan) (text : Text) : Bool :=
  match scan.mode with
  | .plain => true
  | .quoted _ => false
  | .closed close => text.head? != some close

/-- Outside quotes a text is scanned as if no run had been before it. -/
theorem cellsFrom_of_isOutside {scan : Scan} {text : Text} (h : isOutside scan text = true) :
    cellsFrom scan text = cellsFrom ⟨.plain, scan.depth⟩ text := by
  obtain ⟨mode, depth⟩ := scan
  cases mode with
  | plain => rfl
  | quoted close => simp [isOutside] at h
  | closed close => exact cellsFrom_closed (by simpa [isOutside] using h) depth

/-- The second text is what is left of the first behind characters that a scan outside
quotes passes over. -/
def SkipsTo (text rest : Text) : Prop :=
  ∃ front, text = front ++ rest ∧ ∀ c ∈ front, isInert c = true

theorem SkipsTo.refl (text : Text) : SkipsTo text text := ⟨[], rfl, by simp⟩

theorem SkipsTo.trans {text between rest : Text} (hleft : SkipsTo text between)
    (hright : SkipsTo between rest) : SkipsTo text rest := by
  obtain ⟨left, rfl, hleft⟩ := hleft
  obtain ⟨right, rfl, hright⟩ := hright
  exact ⟨left ++ right, by simp, List.forall_mem_append.mpr ⟨hleft, hright⟩⟩

theorem isNeutral_of_isHeaderSpace {c : Char} (h : isHeaderSpace c = true) :
    isNeutral c = true := by
  simp only [isHeaderSpace, Bool.or_eq_true, beq_iff_eq] at h
  rcases h with ((rfl | rfl) | rfl) | rfl <;> decide

theorem isInert_of_isHeaderSpace {c : Char} (h : isHeaderSpace c = true) : isInert c = true :=
  isInert_of_isNeutral (isNeutral_of_isHeaderSpace h)

def openers : List Char := ['\x60', '\x22', '\x27', '[', '(', ')']

theorem isInert_of_notMem {c : Char} (h : c ∉ openers) : isInert c = true := by
  simp only [openers, List.mem_cons, List.not_mem_nil, or_false, not_or] at h
  simp [isInert, closingDelimiter?, h]

/-- A letter of a keyword is passed over in either case. -/
theorem isInert_of_toLower_eq {c letter : Char} (h : c.toLower = letter.toLower)
    (hletter : letter.isUpper = true) : isInert c = true := by
  have halpha : letter.isAlpha = true := Bool.or_eq_true_iff.mpr (.inl hletter)
  apply isInert_of_notMem
  intro hopener
  have hall := forall_of_isAlpha
    (fun letter => openers.all (fun opener => opener.toLower != letter.toLower) = true)
    (by decide +kernel) halpha
  exact bne_iff_ne.mp (List.all_eq_true.mp hall c hopener) h

/-- A keyword is passed over however its letters are written. -/
theorem isInert_of_sameLetters {word found : Text} (hword : word.all Char.isUpper = true)
    (h : sameLetters found word = true) : ∀ c ∈ found, isInert c = true := by
  intro c hc
  have hlower : c.toLower ∈ word.map Char.toLower := by
    rw [← eq_of_beq h]
    exact List.mem_map_of_mem hc
  obtain ⟨letter, hletter, hsame⟩ := List.mem_map.mp hlower
  exact isInert_of_toLower_eq hsame.symm (List.all_eq_true.mp hword letter hletter)

theorem skipsTo_skipSpace (text : Text) : SkipsTo text (skipSpace text) := by
  refine ⟨text.takeWhile isHeaderSpace, List.takeWhile_append_dropWhile.symm, ?_⟩
  intro c hc
  exact isInert_of_isHeaderSpace (List.mem_takeWhile_imp hc)

theorem skipsTo_of_keyword? {keyword : String}
    (hkeyword : keyword.toList.all Char.isUpper = true) {text rest : Text}
    (h : keyword? keyword text = some rest) : SkipsTo text rest := by
  refine (skipsTo_skipSpace text).trans ?_
  dsimp only [keyword?] at h
  split_ifs at h with hfound
  obtain rfl := Option.some.inj h
  rw [Bool.and_eq_true] at hfound
  exact ⟨_, (List.take_append_drop _ _).symm, isInert_of_sameLetters hkeyword hfound.1⟩

theorem skipsTo_of_ifNotExists? {text rest : Text} (h : ifNotExists? text = some rest) :
    SkipsTo text rest := by
  obtain ⟨afterIf, hif, h⟩ := Option.bind_eq_some_iff.mp h
  obtain ⟨afterNot, hnot, hexists⟩ := Option.bind_eq_some_iff.mp h
  exact (skipsTo_of_keyword? rfl hif).trans
    ((skipsTo_of_keyword? rfl hnot).trans (skipsTo_of_keyword? rfl hexists))

theorem skipsTo_skipOptional (text : Text) : SkipsTo text (skipOptional ifNotExists? text) := by
  unfold skipOptional
  cases h : ifNotExists? text with
  | none => exact .refl text
  | some rest => exact skipsTo_of_ifNotExists? h

theorem isInert_of_isBareChar {c : Char} (hc : isBareChar c = true) : isInert c = true := by
  have hopeners : openers.all (fun opener => !isBareChar opener) = true := by decide +kernel
  apply isInert_of_notMem
  intro hopener
  simpa [hc] using List.all_eq_true.mp hopeners c hopener

theorem closingDelimiter?_of_isInert {c : Char} (hc : isInert c = true) :
    closingDelimiter? c = none := by
  simp only [isInert, Bool.and_eq_true, Option.isNone_iff_eq_none] at hc
  exact hc.1.1

/-- A name is read behind blanks. -/
theorem skipSpace_of_identifier? {text name rest : Text}
    (h : identifier? text = some (name, rest)) : skipSpace text = name ++ rest := by
  unfold identifier? at h
  split at h
  · simp at h
  rename_i first more hfirst
  rw [hfirst]
  split_ifs at h with hbracket hquote hbare
  · unfold bracketName? at h
    split at h
    · simp at h
    · rename_i close after hdrop
      obtain ⟨rfl, rfl⟩ := Prod.mk.inj (Option.some.inj h)
      have hmore : more.takeWhile (· != ']') ++ close :: after = more := by
        rw [← hdrop, List.takeWhile_append_dropWhile]
      simp [hbracket, hmore]
  · obtain ⟨⟨run, after⟩, hrun, hpush⟩ := Option.map_eq_some_iff.mp h
    obtain ⟨rfl, rfl⟩ := Prod.mk.inj hpush
    simp [closeQuote?_append hrun]
  · obtain ⟨rfl, rfl⟩ := Prod.mk.inj (Option.some.inj h)
    rw [List.cons_append, List.takeWhile_append_dropWhile]

theorem closingDelimiter?_of_isBareChar {c : Char} (hc : isBareChar c = true) :
    closingDelimiter? c = none := closingDelimiter?_of_isInert (isInert_of_isBareChar hc)

/-- What follows a name that is read does not extend it. -/
theorem ends_of_identifier? {text name rest : Text} (h : identifier? text = some (name, rest)) :
    Ends name rest := by
  have hquoted : ∀ c more, closingDelimiter? c ≠ none →
      (∀ d ∈ c :: more, isBareChar d = true) → ∀ d ∈ rest.head?, isBareChar d = false := by
    intro c more hc hbare
    exact absurd (closingDelimiter?_of_isBareChar (hbare c (List.mem_cons_self ..))) hc
  unfold identifier? at h
  split at h
  · simp at h
  rename_i first more hfirst
  split_ifs at h with hbracket hquote hbare
  · unfold bracketName? at h
    split at h
    · simp at h
    · obtain ⟨rfl, rfl⟩ := Prod.mk.inj (Option.some.inj h)
      refine ⟨?_, hquoted '[' _ (by simp [closingDelimiter?])⟩
      intro mark hmark hhead
      exact absurd (Option.some.inj hhead).symm (ne_bracket_of_isQuoteMark hmark)
  · obtain ⟨⟨run, after⟩, hrun, hpush⟩ := Option.map_eq_some_iff.mp h
    obtain ⟨rfl, rfl⟩ := Prod.mk.inj hpush
    refine ⟨?_, hquoted first run (by rcases hquote with rfl | rfl <;> simp [closingDelimiter?])⟩
    intro mark _ hhead
    obtain rfl : first = mark := by simpa using hhead
    exact head?_of_closeQuote? hrun
  · obtain ⟨rfl, rfl⟩ := Prod.mk.inj (Option.some.inj h)
    refine ⟨?_, ?_⟩
    · intro mark hmark hhead
      obtain rfl : first = mark := by simpa using hhead
      rw [IsQuoteMark, closingDelimiter?_of_isBareChar hbare] at hmark
      simp at hmark
    · intro _ c hc
      have hhead := List.head?_dropWhile_not isBareChar more
      rw [Option.mem_def.mp hc] at hhead
      exact hhead

theorem double_of_notMem {delimiter : Char} {text : Text} (h : delimiter ∉ text) :
    double delimiter text = text := by
  induction text with
  | nil => rfl
  | cons c rest ih =>
    rw [List.mem_cons, not_or] at h
    obtain ⟨hne, hrest⟩ := h
    rw [double_cons_of_ne (Ne.symm hne), ih hrest]

/-- A name is one quoted run, or a word. -/
theorem quoted_or_bare {name : Text} (h : IsIdentifier name) :
    (∃ opening close run, closingDelimiter? opening = some close ∧
      closeQuote? close run = some (run, []) ∧ name = opening :: run) ∨
      ∀ c ∈ name, isBareChar c = true := by
  have hend : ∀ close : Char, ([] : Text).head? ≠ some close := by simp
  cases h with
  | bracketed inside hinside =>
    have hread := closeQuote?_double ']' inside (hend ']')
    rw [double_of_notMem hinside] at hread
    exact .inl ⟨'[', ']', _, rfl, hread, rfl⟩
  | backticked inside =>
    exact .inl ⟨'\x60', '\x60', _, rfl, closeQuote?_double '\x60' inside (hend '\x60'), rfl⟩
  | doubleQuoted inside =>
    exact .inl ⟨'\x22', '\x22', _, rfl, closeQuote?_double '\x22' inside (hend '\x22'), rfl⟩
  | bare first rest hbare => exact .inr hbare

def nameMode (name : Text) : Mode :=
  match name.head?.bind closingDelimiter? with
  | some close => .closed close
  | none => .plain

theorem scan_of_isIdentifier {name : Text} (hname : IsIdentifier name) {scan : Scan}
    (hscan : scan.mode = .plain) :
    scan.run name = ⟨nameMode name, scan.depth⟩ ∧
      ∀ cell ∈ cellsFrom scan name, cell.isQuoted = true ∨ isBareChar cell.char = true := by
  rcases quoted_or_bare hname with ⟨opening, close, run, hclose, hread, rfl⟩ | hbare
  · obtain ⟨hrun, hquoted⟩ := scan_closeQuote? hread scan.depth
    have hmode : nameMode (opening :: run) = .closed close := by simp [nameMode, hclose]
    rw [run_cons, cellsFrom, step_opening hscan hclose, hmode]
    refine ⟨hrun, ?_⟩
    intro cell hcell
    rcases List.mem_cons.mp hcell with rfl | hcell
    · exact .inl rfl
    · exact .inl (hquoted cell hcell)
  · have hinert : ∀ c ∈ name, isInert c = true := fun c hc => isInert_of_isBareChar (hbare c hc)
    have hmode : nameMode name = scan.mode := by
      rw [hscan]
      cases name with
      | nil => rfl
      | cons first rest =>
        have hfirst := closingDelimiter?_of_isInert (hinert first (List.mem_cons_self ..))
        simp [nameMode, hfirst]
    obtain ⟨hrun, hcells⟩ := cellsFrom_word hscan hinert
    rw [hrun, hcells, hmode]
    refine ⟨rfl, ?_⟩
    intro cell hcell
    obtain ⟨c, hc, rfl⟩ := List.mem_map.mp hcell
    exact .inr (hbare c hc)

variable {statement name : Text} {header : TableHeading}

/-- The name of a table statement and what follows it stand behind a text that leaves the
scan where it starts. -/
theorem exists_front_of_readHeader? (h : readHeader? statement = some (.table header))
    (hname : header.name = some name) :
    ∃ front, statement = front ++ (name ++ header.rest) ∧ (∀ c ∈ front, isInert c = true) ∧
      ∀ mark, IsQuoteMark mark → name.head? = some mark → header.rest.head? ≠ some mark := by
  obtain ⟨afterCreate, afterTable, hcreate, htable, hidentifier⟩ := exists_of_readHeader? h hname
  have hskip := skipsTo_skipSpace (skipOptional ifNotExists? afterTable)
  rw [skipSpace_of_identifier? hidentifier] at hskip
  obtain ⟨front, hstatement, hfront⟩ := (skipsTo_of_keyword? rfl hcreate).trans
    ((skipsTo_of_keyword? rfl htable).trans ((skipsTo_skipOptional afterTable).trans hskip))
  exact ⟨front, hstatement, hfront, (ends_of_identifier? hidentifier).mark⟩

/-- The text after a name goes on with the name: the name is in brackets and a second
closing bracket follows. -/
def GoesOn (name rest : Text) : Prop := name.head? = some '[' ∧ rest.head? = some ']'

theorem isOutside_iff (depth : Option Nat) {rest : Text}
    (hmark : ∀ mark, IsQuoteMark mark → name.head? = some mark → rest.head? ≠ some mark) :
    isOutside ⟨nameMode name, depth⟩ rest = true ↔ ¬GoesOn name rest := by
  cases name with
  | nil => simp [isOutside, nameMode, GoesOn]
  | cons first more =>
    cases hclose : closingDelimiter? first with
    | none =>
      have hne : first ≠ '[' := by
        rintro rfl
        simp [closingDelimiter?] at hclose
      simp [isOutside, nameMode, GoesOn, hclose, hne]
    | some close =>
      by_cases hbracket : first = '['
      · subst hbracket
        obtain rfl : ']' = close := Option.some.inj hclose
        simp [isOutside, nameMode, GoesOn, hclose]
      · have hquote : first = close := by
          unfold closingDelimiter? at hclose
          rw [if_neg hbracket] at hclose
          split_ifs at hclose
          exact Option.some.inj hclose
        subst hquote
        simp [isOutside, nameMode, GoesOn, hclose, hbracket, hmark first hclose rfl]

/-- A delimiter that ends a run is scanned differently where it is repeated. -/
theorem cellsFrom_ne_of_goesOn {rest : Text} (h : GoesOn name rest) (depth : Option Nat) :
    cellsFrom ⟨nameMode name, depth⟩ rest ≠ cellsFrom ⟨.plain, depth⟩ rest := by
  obtain ⟨hbracket, hrest⟩ := h
  obtain ⟨after, rfl⟩ : ∃ after, rest = ']' :: after := List.head?_eq_some_iff.mp hrest
  have hmode : nameMode name = .closed ']' := by
    rw [nameMode, hbracket]
    rfl
  rw [hmode, cellsFrom, cellsFrom, step_closed_self]
  simp [Scan.step, Mode.next, Mode.opened, closingDelimiter?]

/-- Only a text with two closing brackets side by side goes on with a name. -/
theorem isInfix_of_goesOn {rest : Text} (hname : IsIdentifier name) (h : GoesOn name rest) :
    [']', ']'] <:+: name ++ rest := by
  obtain ⟨hbracket, hrest⟩ := h
  obtain ⟨after, rfl⟩ : ∃ after, rest = ']' :: after := List.head?_eq_some_iff.mp hrest
  cases hname with
  | bracketed inside hinside => exact ⟨'[' :: inside, after, by simp⟩
  | backticked inside => exact absurd (Option.some.inj hbracket) (by decide)
  | doubleQuoted inside => exact absurd (Option.some.inj hbracket) (by decide)
  | bare first more hbare =>
    obtain rfl : first = '[' := Option.some.inj hbracket
    have hinert := isInert_of_isBareChar (hbare '[' (List.mem_cons_self ..))
    exact absurd hinert (by decide)

/-- Without two closing brackets side by side a statement is scanned part by part. -/
theorem cells_of_readHeader? (h : readHeader? statement = some (.table header))
    (hname : header.name = some name) (hbrackets : ¬ [']', ']'] <:+: statement) :
    ∃ front, cells statement = cells front ++ (cells name ++ cells header.rest) := by
  obtain ⟨front, hstatement, hfront, hmark⟩ := exists_front_of_readHeader? h hname
  have hidentifier := isIdentifier_of_readHeader? h hname
  have hgoes : ¬GoesOn name header.rest := by
    intro hgoes
    apply hbrackets
    rw [hstatement]
    exact (isInfix_of_goesOn hidentifier hgoes).trans (List.suffix_append ..).isInfix
  have houtside := (isOutside_iff (some 0) hmark).mpr hgoes
  refine ⟨front, ?_⟩
  unfold cells
  rw [hstatement, cellsFrom_append, (cellsFrom_word rfl hfront).1, cellsFrom_append,
    (scan_of_isIdentifier hidentifier rfl).1]
  exact congrArg _ (congrArg _ (cellsFrom_of_isOutside houtside))

/-- The scan of a whole statement comes to the end of its name outside groups. It is
outside quotes there, and scans the rest as if the rest stood alone, exactly where the
name is not in brackets that a second closing bracket follows. -/
theorem scan_at_name_end (h : readHeader? statement = some (.table header))
    (hname : header.name = some name) :
    ∃ front, statement = front ++ header.rest ∧ name <:+ front ∧
      (start.run front).depth = some 0 ∧
      (isOutside (start.run front) header.rest = true ↔ ¬GoesOn name header.rest) ∧
      (cellsFrom (start.run front) header.rest = cells header.rest ↔
        ¬GoesOn name header.rest) := by
  obtain ⟨front, hstatement, hfront, hmark⟩ := exists_front_of_readHeader? h hname
  have hidentifier := isIdentifier_of_readHeader? h hname
  have hscan : start.run (front ++ name) = ⟨nameMode name, some 0⟩ := by
    rw [run_append, (cellsFrom_word rfl hfront).1, (scan_of_isIdentifier hidentifier rfl).1]
    rfl
  have houtside := isOutside_iff (some 0) hmark
  refine ⟨front ++ name, by rw [hstatement, List.append_assoc], List.suffix_append front name, ?_⟩
  rw [hscan]
  refine ⟨rfl, houtside, ?_⟩
  constructor
  · intro hcells hgoes
    exact cellsFrom_ne_of_goesOn hgoes (some 0) hcells
  · intro hgoes
    exact cellsFrom_of_isOutside (houtside.mpr hgoes)

def markedHeading : TableHeading := ⟨some "\"a\"\"(b\"".toList, true, "(x int)".toList⟩

theorem scan_at_name_end_markedHeading :
    readHeader? "create table\tif not exists \"a\"\"(b\"(x int)".toList =
      some (.table markedHeading) ∧
    ∃ front, "create table\tif not exists \"a\"\"(b\"(x int)".toList =
        front ++ markedHeading.rest ∧
      "\"a\"\"(b\"".toList <:+ front ∧ (start.run front).depth = some 0 ∧
      (isOutside (start.run front) markedHeading.rest = true ↔
        ¬GoesOn "\"a\"\"(b\"".toList markedHeading.rest) ∧
      (cellsFrom (start.run front) markedHeading.rest = cells markedHeading.rest ↔
        ¬GoesOn "\"a\"\"(b\"".toList markedHeading.rest) := by
  have hread : readHeader? "create table\tif not exists \"a\"\"(b\"(x int)".toList =
      some (.table markedHeading) := by decide +kernel
  exact ⟨hread, scan_at_name_end hread rfl⟩

/-- The header reads the name in brackets to its end and the table is read, but the scan
is still inside the brackets there, so the statement cannot be taken out of a batch. -/
theorem isOutside_bracketedHeading :
    readHeader? "CREATE TABLE [a]](x int)".toList =
      some (.table ⟨some "[a]".toList, false, "](x int)".toList⟩) ∧
    (readTable ["CREATE TABLE [a]](x int)".toList]).toOption.map Table.name =
      some "[a]".toList ∧
    "CREATE TABLE [a]](x int)".toList = "CREATE TABLE [a]".toList ++ "](x int)".toList ∧
    isOutside (start.run "CREATE TABLE [a]".toList) "](x int)".toList = false ∧
    (separateStatements "CREATE TABLE [a]](x int)".toList).toOption = none := by
  refine ⟨?_, ?_, ?_, ?_, ?_⟩ <;> decide +kernel

end SqliteSchema.Proofs.HeaderScans
