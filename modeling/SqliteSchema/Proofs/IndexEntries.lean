import SqliteSchema.Proofs.ColumnFlags
import SqliteSchema.Proofs.StatementBodies

/-!
How the entries of an index are read. A name with its collation and its order is read as the
name. Of the other entries those are kept as they are that are one token, or a name in front
of a group; any other is cut down to its first token, and then an index over an expression
makes unique the column with which the expression begins. Where an entry is kept, no column
that is written in it is made unique.
-/
namespace SqliteSchema.Proofs.IndexEntries

open PlainText Quoting DelimiterScan Faults ClauseSplitting ClauseTokens StatementHeaders
  IndexDefinitions BalancedTexts SqueezedPieces NormalPieces BalancedTokens PieceTokens TokenReading
  TableReading ColumnFlags StatementBodies

def isColumnEnd : List Token → Bool
  | collate :: collation :: rest =>
      collate.spells "COLLATE" && collation.kind == .word && isOrder rest
  | rest => isOrder rest

def columnName? (entry : Text) : Option Text :=
  match tokensOf entry with
  | [] => none
  | first :: rest => if first.isName && isColumnEnd rest then some (bareText first.text) else none

/-- An expression of one token, or with a group after its first token. -/
def isKept (entry : Text) : Bool :=
  match tokensOf entry with
  | _ :: second :: _ => second.isGroup
  | _ => true

inductive IsReadAs (entry : Text) : Text → Prop
  | column {name : Text} (hname : columnName? entry = some name) : IsReadAs entry name
  | expression (hname : columnName? entry = none) (hkept : isKept entry = true) :
      IsReadAs entry entry
  | beginning {first : Token} {rest : List Token} (hname : columnName? entry = none)
      (hkept : isKept entry = false) (htokens : tokensOf entry = first :: rest)
      (hless : bareText first.text ≠ entry) : IsReadAs entry (bareText first.text)

def Mentions (entry name : Text) : Prop :=
  ∃ written, written <:+: entry ∧ columnName? written = some name

def HasEntries (statement : Text) (entries : List Text) : Prop :=
  ∃ header group, readHeader? statement = some (.index header) ∧
    parenthesized header.rest = .ok (some group) ∧ separateClauses group.body = .ok entries

theorem length_halve_le (delimiter : Char) (text : Text) :
    (halve delimiter text).length ≤ text.length := by
  fun_induction halve delimiter text with
  | case1 | case2 => exact Nat.le_refl _
  | case3 c d rest h ih =>
    simp only [List.length_cons]
    omega
  | case4 c d rest h ih =>
    simp only [List.length_cons] at ih ⊢
    omega

theorem length_bareText_le (text : Text) : (bareText text).length ≤ text.length := by
  cases text with
  | nil => exact Nat.le_refl _
  | cons opening rest =>
    have hdropped : rest.dropLast.length ≤ rest.length := (List.dropLast_prefix rest).length_le
    have hhalved : ∀ close, (halve close rest.dropLast).length ≤ rest.length :=
      fun close => (length_halve_le close rest.dropLast).trans hdropped
    simp only [bareText]
    split
    · split_ifs
      · exact hdropped.trans (Nat.le_succ _)
      · exact (hhalved _).trans (Nat.le_succ _)
      · exact Nat.le_refl _
    · exact Nat.le_refl _

theorem bareText_of_plain {first : Char} (h : closingDelimiter? first = none) (rest : Text) :
    bareText (first :: rest) = first :: rest := by
  simp [bareText, h]

/-- The first token stands behind a gap, and the other tokens in what follows. -/
theorem exists_of_tokensOf_cons {text : Text} {token : Token} {rest : List Token}
    (h : tokensOf text = token :: rest) :
    ∃ gap after, text = gap ++ (token.text ++ after) ∧ tokensOf after = rest := by
  obtain ⟨first, run, after, -, -, htext, -, hrest, rfl⟩ := exists_of_tokensOf_eq_cons h
  exact ⟨token.gap, after, by rw [htext, List.cons_append], hrest⟩

theorem length_text_le {text : Text} {token : Token} {rest : List Token}
    (h : tokensOf text = token :: rest) : token.text.length ≤ text.length := by
  obtain ⟨gap, after, rfl, -⟩ := exists_of_tokensOf_cons h
  simp only [List.length_append]
  omega

/-- Where more tokens follow, the first is shorter than the text. -/
theorem length_text_lt {text : Text} {first second : Token} {rest : List Token}
    (h : tokensOf text = first :: second :: rest) : first.text.length < text.length := by
  obtain ⟨gap, after, rfl, hafter⟩ := exists_of_tokensOf_cons h
  have hne : after ≠ [] := by
    rintro rfl
    rw [tokensOf_nil] at hafter
    simp at hafter
  have hlength := List.length_pos_of_ne_nil hne
  simp only [List.length_append]
  omega

theorem length_columnName?_le {written name : Text} (h : columnName? written = some name) :
    name.length ≤ written.length := by
  unfold columnName? at h
  cases htokens : tokensOf written with
  | nil => simp [htokens] at h
  | cons first rest =>
    simp only [htokens, Option.ite_none_right_eq_some, Option.some.injEq] at h
    obtain ⟨-, rfl⟩ := h
    exact (length_bareText_le first.text).trans (length_text_le htokens)

/-- An entry that is no column is not the name of any column that is written in it. -/
theorem ne_of_mentions {entry name : Text} (hentry : columnName? entry = none)
    (h : Mentions entry name) : name ≠ entry := by
  rintro rfl
  obtain ⟨written, hinfix, hname⟩ := h
  have hlength := Nat.le_antisymm hinfix.length_le (length_columnName?_le hname)
  obtain rfl := hinfix.eq_of_length hlength
  rw [hentry] at hname
  simp at hname

variable {entry : Text}

theorem plainColumn?_of_columnName? {name : Text} (h : columnName? entry = some name) :
    plainColumn? entry = some name := by
  have hend : ∀ rest, isColumnEnd rest = true → isOrder (skipCollation rest) = true := by
    intro rest hrest
    match rest with
    | [] | [_] => exact hrest
    | collate :: collation :: rest =>
      simp only [isColumnEnd, Bool.and_eq_true] at hrest
      obtain ⟨⟨hcollate, hword⟩, horder⟩ := hrest
      have hname : collation.isName = true := Bool.or_eq_true_iff.mpr (.inl hword)
      simpa [skipCollation, hcollate, hname] using horder
  unfold columnName? at h
  unfold plainColumn?
  cases htokens : tokensOf entry with
  | nil => simp [htokens] at h
  | cons first rest =>
    simp only [htokens, Option.ite_none_right_eq_some, Bool.and_eq_true, Option.some.injEq] at h ⊢
    exact ⟨⟨h.1.1, hend rest h.1.2⟩, h.2⟩

theorem eq_nil_of_isTight_append {gap : Text} (hgap : ∀ c ∈ gap, isBlank c = true)
    {piece : List Cell} (h : IsTight (cells gap ++ piece)) : gap = [] := by
  by_contra hne
  obtain ⟨cell, more, hcells⟩ := List.exists_cons_of_ne_nil (cellsFrom_ne_nil hne start)
  have hhead := isGap_head_of_isTight h (by rw [cells, hcells]; rfl)
  have hcell := isGap_of_mem_blanks isReachable_start rfl hgap cell (by simp [hcells])
  rw [hhead] at hcell
  exact Bool.noConfusion hcell

theorem eq_nil_of_isTight_append_gap {gap : Text} (hgap : ∀ c ∈ gap, isBlank c = true)
    {piece : List Cell} (h : IsTight (piece ++ cells gap)) : gap = [] := by
  by_contra hne
  have hcells := List.getLast?_eq_some_getLast (cellsFrom_ne_nil hne start)
  have hlast := isGap_getLast_of_isTight h (by rw [List.getLast?_append, cells, hcells]; rfl)
  have hcell := isGap_of_mem_blanks isReachable_start rfl hgap _ (List.getLast_mem
    (cellsFrom_ne_nil hne start))
  rw [hlast] at hcell
  exact Bool.noConfusion hcell

/-- A tight text of one token is that token, and only a name can lose quotes. -/
theorem eq_text_of_tokensOf_eq_singleton (hbalanced : isBalanced entry = true)
    (htight : IsTight (cells entry)) {token : Token} (h : tokensOf entry = [token]) :
    entry = token.text ∧ (token.isName = false → bareText entry = entry) := by
  induction entry, hbalanced using balanced_induction with
  | blank text _ hblank =>
    rw [tokensOf_of_blank hblank] at h
    simp at h
  | token gap first kind run after _ hgap hblank hlexes _ _ =>
    rw [tokensOf_of_lexes hgap hblank hlexes, List.cons.injEq] at h
    obtain ⟨rfl, hnil⟩ := h
    rw [(scan_of_blanks hgap _).1, cells_of_lexes hlexes] at htight
    obtain rfl := eq_nil_of_isTight_append hgap htight
    rw [← List.append_assoc] at htight
    obtain rfl := eq_nil_of_isTight_append_gap (isBlank_of_tokensOf_eq_nil hnil) htight
    rw [List.append_nil, List.nil_append]
    refine ⟨rfl, ?_⟩
    intro hname
    cases hlexes with
    | group hfirst | comma hfirst => exact bareText_of_plain (by rw [hfirst]; decide) _
    | quoted | word => simp [Token.isName] at hname

/-- A kept entry is read as it is written. -/
theorem entryColumn_of_isKept {separator : Char} (hpiece : IsPiece separator entry)
    (hfilled : tokensOf entry ≠ []) (hname : columnName? entry = none)
    (hkept : isKept entry = true) : entryColumn entry = entry := by
  unfold columnName? at hname
  unfold isKept at hkept
  unfold entryColumn
  match htokens : tokensOf entry with
  | [] => exact absurd htokens hfilled
  | [token] =>
    obtain ⟨heq, hbare⟩ := eq_text_of_tokensOf_eq_singleton hpiece.balanced hpiece.tight htokens
    have hnoname : token.isName = false := by
      simpa [htokens, isColumnEnd, isOrder] using hname
    simp [← heq, hbare hnoname]
  | first :: second :: rest =>
    have hgroup : second.isGroup = true := by simpa [htokens] using hkept
    simp [hgroup]

theorem isReadAs_entryColumn {separator : Char} (hpiece : IsPiece separator entry)
    (hfilled : tokensOf entry ≠ []) : IsReadAs entry (entryColumn entry) := by
  cases hname : columnName? entry with
  | some name =>
    rw [entryColumn_of_plainColumn? (plainColumn?_of_columnName? hname)]
    exact .column hname
  | none =>
    cases hkept : isKept entry with
    | true =>
      rw [entryColumn_of_isKept hpiece hfilled hname hkept]
      exact .expression hname hkept
    | false =>
      match htokens : tokensOf entry with
      | [] => exact absurd htokens hfilled
      | [_] => simp [isKept, htokens] at hkept
      | first :: second :: rest =>
        have hgroup : second.isGroup = false := by simpa [isKept, htokens] using hkept
        have hcut : entryColumn entry = bareText first.text := by
          simp [entryColumn, htokens, hgroup]
        rw [hcut]
        refine .beginning hname hkept htokens ?_
        intro heq
        have hbare := length_bareText_le first.text
        have hfirst := length_text_lt htokens
        rw [heq] at hbare
        omega

theorem IsReadAs.eq_of_isKept {name : Text} (h : IsReadAs entry name)
    (hname : columnName? entry = none) (hkept : isKept entry = true) : name = entry := by
  cases h with
  | column hcolumn =>
    rw [hname] at hcolumn
    simp at hcolumn
  | expression => rfl
  | beginning _ hcut =>
    rw [hkept] at hcut
    exact Bool.noConfusion hcut

theorem eq_singleton_of_soleUniqueColumn? {index : Index} {name : Text}
    (h : index.soleUniqueColumn? = some name) : index.columns = [name] := by
  unfold Index.soleUniqueColumn? at h
  split at h
  · rename_i column hcolumns
    split_ifs at h
    rw [hcolumns, Option.some.inj h]
  · simp at h

theorem exists_of_readIndex {statement : Text} {index : Index}
    (h : readIndex statement = .ok index) :
    ∃ entries, HasEntries statement entries ∧ List.Forall₂ IsReadAs entries index.columns := by
  unfold readIndex at h
  cases hheader : readHeader? statement with
  | none => simp [hheader] at h
  | some found =>
    cases found with
    | table header => simp [hheader] at h
    | index header =>
      simp only [hheader, readBody] at h
      obtain ⟨part, hpart, h⟩ := bind_eq_ok.mp h
      cases part with
      | none => simp at h
      | some group =>
        obtain ⟨entries, hentries, h⟩ := bind_eq_ok.mp h
        obtain rfl := Except.ok.inj h
        refine ⟨entries, ⟨header, group, hheader, hpart, hentries⟩, ?_⟩
        obtain ⟨hpieces, hfilled⟩ := separateClauses_of_parenthesized hpart
        obtain rfl := Except.ok.inj (hentries.symm.trans hpieces)
        obtain ⟨hbalanced, -⟩ := separate_eq_ok_iff.mp hpieces
        rw [List.forall₂_map_right_iff, List.forall₂_same]
        intro entry hentry
        exact isReadAs_entryColumn
          (isPiece_of_mem_pieces isSeparating_comma hbalanced hentry) (hfilled entry hentry)

/-- An entry that names a column is read as its name, and an expression as it is written
unless it is cut down to its beginning. The column that an index makes unique is what its
only entry is read as; no expression that is read as it is written mentions that column. -/
theorem columns_of_readIndex {statement : Text} {index : Index}
    (h : readIndex statement = .ok index) :
    ∃ entries, HasEntries statement entries ∧ List.Forall₂ IsReadAs entries index.columns ∧
      ∀ name, index.soleUniqueColumn? = some name → ∃ entry, entries = [entry] ∧
        IsReadAs entry name ∧
        (columnName? entry = none → isKept entry = true → ¬ Mentions entry name) := by
  obtain ⟨entries, hentries, hread⟩ := exists_of_readIndex h
  refine ⟨entries, hentries, hread, ?_⟩
  intro name hsole
  have hcolumns := eq_singleton_of_soleUniqueColumn? hsole
  rw [hcolumns, List.forall₂_cons_right_iff] at hread
  obtain ⟨entry, rest, hname, hrest, rfl⟩ := hread
  obtain rfl := List.forall₂_nil_right_iff.mp hrest
  refine ⟨entry, rfl, hname, ?_⟩
  intro hentry hkept hmentions
  exact ne_of_mentions hentry hmentions (hname.eq_of_isKept hentry hkept)

def callEntry : Text := "lower( \"a b\" )".toList

def callIndex : Text := "CREATE UNIQUE INDEX i ON t ( lower( \"a b\" ) )".toList

theorem columns_callIndex : ∃ index, readIndex callIndex = .ok index ∧
    index.soleUniqueColumn? = some callEntry ∧ columnName? callEntry = none ∧
    isKept callEntry = true ∧ Mentions callEntry "a b".toList ∧
    ∃ entries, HasEntries callIndex entries ∧ List.Forall₂ IsReadAs entries index.columns ∧
      ∀ name, index.soleUniqueColumn? = some name → ∃ entry, entries = [entry] ∧
        IsReadAs entry name ∧
        (columnName? entry = none → isKept entry = true → ¬ Mentions entry name) := by
  have hread : readIndex callIndex = .ok ⟨['i'], ['t'], true, [callEntry], false⟩ :=
    eq_ok_of_toOption (by decide +kernel)
  have hmentions : Mentions callEntry "a b".toList :=
    ⟨"\"a b\"".toList, ⟨"lower( ".toList, " )".toList, by decide⟩, by decide +kernel⟩
  exact ⟨_, hread, rfl, by decide +kernel, by decide +kernel, hmentions, columns_of_readIndex hread⟩

/-- A unique index on a member of the values of a column. -/
def memberIndex : Text := "CREATE UNIQUE INDEX i ON t (a -> '$.id')".toList

/-- The index is on an expression, and yet it makes unique the column that the expression
begins with. -/
theorem soleUniqueColumn?_memberIndex : ∃ index, readIndex memberIndex = .ok index ∧
    HasEntries memberIndex ["a -> '$.id'".toList] ∧ columnName? "a -> '$.id'".toList = none ∧
    Mentions "a -> '$.id'".toList ['a'] ∧ index.columns = [['a']] ∧
    index.soleUniqueColumn? = some ['a'] := by
  have hread : readIndex memberIndex = .ok ⟨['i'], ['t'], true, [['a']], false⟩ :=
    eq_ok_of_toOption (by decide +kernel)
  have hentries : HasEntries memberIndex ["a -> '$.id'".toList] :=
    ⟨⟨['i'], ['t'], true, " (a -> '$.id')".toList⟩, ⟨"a -> '$.id'".toList, []⟩,
      by decide +kernel, eq_ok_of_toOption (by decide +kernel),
      eq_ok_of_toOption (by decide +kernel)⟩
  have hmentions : Mentions "a -> '$.id'".toList ['a'] :=
    ⟨['a'], (List.prefix_append ['a'] " -> '$.id'".toList).isInfix, by decide +kernel⟩
  exact ⟨_, hread, hentries, by decide +kernel, hmentions, rfl, rfl⟩

end SqliteSchema.Proofs.IndexEntries
