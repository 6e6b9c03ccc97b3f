import Eloth.Database

/-!
# Statements of batched insertions

The text that a batched insertion sends. The running length counts the rows but neither their
brackets nor the commas between them, and the row that caused a statement to be sent is not
counted in the next one.
-/

namespace Eloth

structure InsertText where
  query : String
  values : String
  length : Nat

namespace InsertText

def new (query : String) : InsertText where
  query := query
  values := ""
  length := query.length

/-- Whether the buffer was sent, what is left of it, and the statements sent. -/
def execute (executeQuery : String → Bool) (self : InsertText) : Bool × InsertText × List String :=
  if self.values.isEmpty then (true, self, [])
  else
    let statement := self.query ++ self.values
    (executeQuery statement, { self with values := "", length := self.query.length }, [statement])

def addRow (executeQuery : String → Bool) (maxPacketSize : Nat) (self : InsertText)
    (row : String) : Bool × InsertText × List String :=
  let self := { self with length := self.length + row.length }
  let (sent, self, statements) :=
    if self.length > maxPacketSize then self.execute executeQuery else (true, self, [])
  if !sent then (false, self, statements)
  else
    let values :=
      if self.values.isEmpty then "(" ++ row ++ ")" else self.values ++ ",(" ++ row ++ ")"
    (true, { self with values := values }, statements)

/-- The calls of `addRow` in a loop that stops at the first failure, and `execute` at its end. -/
def insertRows (executeQuery : String → Bool) (maxPacketSize : Nat) :
    InsertText → List String → Bool × List String
  | self, [] =>
    let (sent, _, statements) := self.execute executeQuery
    (sent, statements)
  | self, row :: rows =>
    match self.addRow executeQuery maxPacketSize row with
    | (false, _, statements) => (false, statements)
    | (true, self, statements) =>
      let (sent, later) := insertRows executeQuery maxPacketSize self rows
      (sent, statements ++ later)

/-! ## Statements as lists of rows -/

/-- The rows of a statement, each in brackets, with commas between them. -/
def rowsText : List String → String
  | [] => ""
  | row :: rows => rows.foldl (fun text row => text ++ ",(" ++ row ++ ")") ("(" ++ row ++ ")")

def statementText (query : String) (rows : List String) : String := query ++ rowsText rows

/-- The statements carry every row once, in this order, and each carries a row. -/
def SendsRows (query : String) (rows statements : List String) : Prop :=
  ∃ batches : List (List String), batches.flatten = rows ∧ (∀ batch ∈ batches, batch ≠ []) ∧
    statements = batches.map (statementText query)

variable {executeQuery : String → Bool} {maxPacketSize : Nat} {self : InsertText}
  {buffered rows : List String} {row : String}

theorem rowsText_append (hbuffered : buffered ≠ []) (row : String) :
    rowsText (buffered ++ [row]) = rowsText buffered ++ ",(" ++ row ++ ")" := by
  cases buffered with
  | nil => exact absurd rfl hbuffered
  | cons first rest =>
    simp only [List.cons_append, rowsText, List.foldl_append, List.foldl_cons, List.foldl_nil]

theorem length_first (row : String) : ("(" ++ row ++ ")").length = row.length + 2 := by
  rw [String.length_append, String.length_append, Nat.add_comm "(".length]
  rfl

theorem length_joined (text row : String) :
    (text ++ ",(" ++ row ++ ")").length = text.length + row.length + 3 := by
  rw [String.length_append, String.length_append, String.length_append,
    Nat.add_right_comm text.length]
  rfl

theorem length_rowsText_cons (row : String) (rows : List String) :
    row.length + 2 ≤ (rowsText (row :: rows)).length := by
  have hgrow : ∀ text : String,
      text.length ≤ (rows.foldl (fun text row => text ++ ",(" ++ row ++ ")") text).length := by
    induction rows with
    | nil => exact fun _ => Nat.le_refl _
    | cons row rows ih =>
      intro text
      refine Nat.le_trans ?_ (ih _)
      rw [length_joined]
      omega
  rw [← length_first]
  exact hgrow _

theorem rowsText_ne_empty (hbuffered : buffered ≠ []) : rowsText buffered ≠ "" := by
  obtain ⟨row, rows, rfl⟩ := List.exists_cons_of_ne_nil hbuffered
  intro hnil
  have hle := length_rowsText_cons row rows
  rw [hnil] at hle
  exact Nat.not_succ_le_zero _ hle

theorem isEmpty_rowsText (rows : List String) : (rowsText rows).isEmpty = rows.isEmpty := by
  cases rows with
  | nil => rfl
  | cons row rows =>
    exact Bool.eq_false_iff.mpr fun hempty =>
      rowsText_ne_empty (List.cons_ne_nil row rows) (String.isEmpty_iff.mp hempty)

/-! ## One step -/

/-- The statement for the buffered rows, if there are any. -/
def pending (query : String) : List String → List String
  | [] => []
  | row :: rows => [statementText query (row :: rows)]

theorem execute_spec (hquery : ∀ statement, executeQuery statement = true)
    (hvalues : self.values = rowsText buffered) :
    ∃ length, self.execute executeQuery =
      (true, ⟨self.query, "", length⟩, pending self.query buffered) := by
  have hempty : self.values.isEmpty = buffered.isEmpty := by rw [hvalues, isEmpty_rowsText]
  simp only [execute, hquery, hempty]
  cases buffered with
  | nil =>
    refine ⟨self.length, ?_⟩
    rw [← show self.values = "" from hvalues]
    rfl
  | cons row rows =>
    refine ⟨self.query.length, ?_⟩
    rw [hvalues]
    rfl

theorem addRow_of_execute {length : Nat} {statements : List String}
    (hexecute : { self with length := self.length + row.length }.execute executeQuery =
      (true, ⟨self.query, "", length⟩, statements))
    (hfull : self.length + row.length > maxPacketSize) :
    self.addRow executeQuery maxPacketSize row =
      (true, ⟨self.query, rowsText [row], length⟩, statements) := by
  simp only [addRow, if_pos hfull, hexecute]
  rfl

/-- A row that is counted not to fit starts the next statement. -/
theorem addRow_flush (hquery : ∀ statement, executeQuery statement = true)
    (hvalues : self.values = rowsText buffered) (hfull : self.length + row.length > maxPacketSize) :
    ∃ length, self.addRow executeQuery maxPacketSize row =
      (true, ⟨self.query, rowsText [row], length⟩, pending self.query buffered) := by
  obtain ⟨length, hexecute⟩ :=
    @execute_spec _ { self with length := self.length + row.length } _ hquery hvalues
  exact ⟨length, addRow_of_execute hexecute hfull⟩

theorem addRow_keep (hvalues : self.values = rowsText buffered)
    (hroom : self.length + row.length ≤ maxPacketSize) :
    self.addRow executeQuery maxPacketSize row =
      (true, ⟨self.query, rowsText (buffered ++ [row]), self.length + row.length⟩, []) := by
  have hempty : self.values.isEmpty = buffered.isEmpty := by rw [hvalues, isEmpty_rowsText]
  simp only [addRow, if_neg (Nat.not_lt.mpr hroom), hempty]
  cases buffered with
  | nil => rfl
  | cons first rest =>
    rw [rowsText_append (List.cons_ne_nil _ _), hvalues]
    rfl

/-! ## Runs -/

theorem sendsRows_pending (query : String) (rows : List String) :
    SendsRows query rows (pending query rows) := by
  cases rows with
  | nil => exact ⟨[], rfl, by simp, rfl⟩
  | cons row rows => exact ⟨[row :: rows], by simp, by simp, rfl⟩

theorem SendsRows.append {query : String} {rows rows' statements statements' : List String}
    (h : SendsRows query rows statements) (h' : SendsRows query rows' statements') :
    SendsRows query (rows ++ rows') (statements ++ statements') := by
  obtain ⟨batches, rfl, hne, rfl⟩ := h
  obtain ⟨batches', rfl, hne', rfl⟩ := h'
  refine ⟨batches ++ batches', List.flatten_append, fun batch hbatch => ?_, List.map_append.symm⟩
  exact (List.mem_append.mp hbatch).elim (hne batch) (hne' batch)

theorem insertRows_sends (hquery : ∀ statement, executeQuery statement = true)
    (hvalues : self.values = rowsText buffered) (rows : List String) :
    (self.insertRows executeQuery maxPacketSize rows).1 = true ∧
      SendsRows self.query (buffered ++ rows)
        (self.insertRows executeQuery maxPacketSize rows).2 := by
  induction rows generalizing self buffered with
  | nil =>
    obtain ⟨length, hexecute⟩ := execute_spec hquery hvalues
    simp only [insertRows, hexecute, List.append_nil, true_and]
    exact sendsRows_pending _ _
  | cons row rows ih =>
    obtain hfull | hroom := Nat.lt_or_ge maxPacketSize (self.length + row.length)
    · obtain ⟨length, hadd⟩ := addRow_flush hquery hvalues hfull
      obtain ⟨hsent, hrows⟩ := @ih ⟨self.query, rowsText [row], length⟩ [row] rfl
      simp only [insertRows, hadd]
      exact ⟨hsent, (sendsRows_pending _ buffered).append hrows⟩
    · obtain ⟨hsent, hrows⟩ :=
        @ih ⟨self.query, rowsText (buffered ++ [row]), self.length + row.length⟩ _ rfl
      simp only [insertRows, addRow_keep hvalues hroom, List.nil_append]
      rw [List.append_assoc] at hrows
      exact ⟨hsent, hrows⟩

/-- A row that joins buffered rows because it is counted to fit does fit, with its brackets and
its comma. -/
def HasRoom (maxPacketSize : Nat) (self : InsertText) (row : String) : Prop :=
  self.values ≠ "" → self.length + row.length ≤ maxPacketSize →
    self.query.length + self.values.length + row.length + 3 ≤ maxPacketSize

/-- Every row is added to a buffer with room for it. -/
def RoomForRows (executeQuery : String → Bool) (maxPacketSize : Nat) :
    InsertText → List String → Prop
  | _, [] => True
  | self, row :: rows => self.HasRoom maxPacketSize row ∧
    RoomForRows executeQuery maxPacketSize (self.addRow executeQuery maxPacketSize row).2.1 rows

def Within (maxPacketSize : Nat) (statements : List String) : Prop :=
  ∀ statement ∈ statements, statement.length ≤ maxPacketSize

theorem length_statementText (query : String) (rows : List String) :
    (statementText query rows).length = query.length + (rowsText rows).length :=
  String.length_append _ _

theorem within_pending {query : String}
    (h : buffered ≠ [] → query.length + (rowsText buffered).length ≤ maxPacketSize) :
    Within maxPacketSize (pending query buffered) := by
  cases buffered with
  | nil => exact fun _ hin => absurd hin List.not_mem_nil
  | cons row rows =>
    intro statement hin
    rw [List.mem_singleton.mp hin, length_statementText]
    exact h (List.cons_ne_nil _ _)

theorem RoomForRows.within (hquery : ∀ statement, executeQuery statement = true)
    (hvalues : self.values = rowsText buffered)
    (hbuffered : buffered ≠ [] → self.query.length + (rowsText buffered).length ≤ maxPacketSize)
    (hrows : ∀ row ∈ rows, self.query.length + row.length + 2 ≤ maxPacketSize)
    (h : RoomForRows executeQuery maxPacketSize self rows) :
    Within maxPacketSize (self.insertRows executeQuery maxPacketSize rows).2 := by
  induction rows generalizing self buffered with
  | nil =>
    obtain ⟨length, hexecute⟩ := execute_spec hquery hvalues
    simp only [insertRows, hexecute]
    exact within_pending hbuffered
  | cons row rows ih =>
    obtain ⟨hhere, hlater⟩ := h
    have hfirst := hrows row List.mem_cons_self
    have hrest := fun row' hrow' => hrows row' (List.mem_cons_of_mem row hrow')
    have hsingle : (rowsText [row]).length = row.length + 2 := length_first row
    obtain hfull | hroom := Nat.lt_or_ge maxPacketSize (self.length + row.length)
    · obtain ⟨length, hadd⟩ := addRow_flush hquery hvalues hfull
      rw [hadd] at hlater
      simp only [insertRows, hadd]
      have hlaterWithin :=
        @ih ⟨self.query, rowsText [row], length⟩ [row] rfl (fun _ => by
          change self.query.length + _ ≤ _
          omega) hrest hlater
      exact fun statement hin => (List.mem_append.mp hin).elim
        (within_pending hbuffered statement) (hlaterWithin statement)
    · have hadd := @addRow_keep executeQuery _ _ _ _ hvalues hroom
      rw [hadd] at hlater
      simp only [insertRows, hadd, List.nil_append]
      refine @ih ⟨self.query, rowsText (buffered ++ [row]), self.length + row.length⟩ _ rfl
        (fun _ => ?_) hrest hlater
      change self.query.length + _ ≤ _
      cases buffered with
      | nil =>
        rw [List.nil_append]
        omega
      | cons first rest =>
        have hne : self.values ≠ "" := hvalues ▸ rowsText_ne_empty (List.cons_ne_nil _ _)
        have hfits := hhere hne hroom
        rw [hvalues] at hfits
        rw [rowsText_append (List.cons_ne_nil _ _), length_joined]
        omega

/-- What is buffered is part of a statement sent later. -/
theorem buffered_sent (hquery : ∀ statement, executeQuery statement = true)
    (hvalues : self.values = rowsText buffered) (hbuffered : buffered ≠ []) (rows : List String) :
    ∃ statement ∈ (self.insertRows executeQuery maxPacketSize rows).2,
      self.query.length + (rowsText buffered).length ≤ statement.length := by
  have hpending : pending self.query buffered = [statementText self.query buffered] := by
    obtain ⟨row, rows, rfl⟩ := List.exists_cons_of_ne_nil hbuffered
    rfl
  induction rows generalizing self buffered with
  | nil =>
    obtain ⟨length, hexecute⟩ := execute_spec hquery hvalues
    simp only [insertRows, hexecute, hpending]
    exact ⟨_, List.mem_singleton_self _, Nat.le_of_eq (length_statementText _ _).symm⟩
  | cons row rows ih =>
    obtain hfull | hroom := Nat.lt_or_ge maxPacketSize (self.length + row.length)
    · obtain ⟨length, hadd⟩ := addRow_flush hquery hvalues hfull
      simp only [insertRows, hadd, hpending]
      exact ⟨_, List.mem_append_left _ (List.mem_singleton_self _), Nat.le_of_eq (length_statementText _ _).symm⟩
    · have hne : buffered ++ [row] ≠ [] := List.append_ne_nil_of_left_ne_nil hbuffered _
      have hpending' : pending self.query (buffered ++ [row]) =
          [statementText self.query (buffered ++ [row])] := by
        obtain ⟨first, rest, hcons⟩ := List.exists_cons_of_ne_nil hne
        rw [hcons]
        rfl
      obtain ⟨statement, hin, hle⟩ :=
        @ih ⟨self.query, rowsText (buffered ++ [row]), self.length + row.length⟩ _ rfl hne
          hpending'
      simp only [insertRows, addRow_keep hvalues hroom, List.nil_append]
      refine ⟨statement, hin, Nat.le_trans (Nat.add_le_add_left ?_ _) hle⟩
      rw [rowsText_append hbuffered, length_joined]
      omega

theorem RoomForRows.of_within (hquery : ∀ statement, executeQuery statement = true)
    (hvalues : self.values = rowsText buffered)
    (h : Within maxPacketSize (self.insertRows executeQuery maxPacketSize rows).2) :
    RoomForRows executeQuery maxPacketSize self rows := by
  induction rows generalizing self buffered with
  | nil => exact trivial
  | cons row rows ih =>
    obtain hfull | hroom := Nat.lt_or_ge maxPacketSize (self.length + row.length)
    · obtain ⟨length, hadd⟩ := addRow_flush hquery hvalues hfull
      simp only [insertRows, hadd] at h
      refine ⟨fun _ hle => absurd hle (Nat.not_le.mpr hfull), ?_⟩
      rw [hadd]
      exact @ih ⟨self.query, rowsText [row], length⟩ [row] rfl fun statement hin =>
        h statement (List.mem_append_right _ hin)
    · have hadd := @addRow_keep executeQuery _ _ _ _ hvalues hroom
      simp only [insertRows, hadd, List.nil_append] at h
      refine ⟨fun hne _ => ?_, ?_⟩
      · have hbuffered : buffered ≠ [] := by
          rintro rfl
          exact hne hvalues
        obtain ⟨statement, hin, hle⟩ :=
          @buffered_sent executeQuery maxPacketSize
            ⟨self.query, rowsText (buffered ++ [row]), self.length + row.length⟩ _ hquery rfl
            (List.append_ne_nil_of_left_ne_nil hbuffered _) rows
        have hwithin := h statement hin
        change self.query.length + _ ≤ _ at hle
        rw [rowsText_append hbuffered, length_joined, ← hvalues] at hle
        omega
      · rw [hadd]
        exact @ih ⟨self.query, rowsText (buffered ++ [row]), self.length + row.length⟩ _ rfl h

/-- All rows are sent once and in order; the statements keep to the packet size exactly where every
row that is counted to fit into the buffered statement does fit. -/
theorem insertRows_within_iff (query : String)
    (hquery : ∀ statement, executeQuery statement = true)
    (hrows : ∀ row ∈ rows, query.length + row.length + 2 ≤ maxPacketSize) :
    ((new query).insertRows executeQuery maxPacketSize rows).1 = true ∧
    SendsRows query rows ((new query).insertRows executeQuery maxPacketSize rows).2 ∧
    (Within maxPacketSize ((new query).insertRows executeQuery maxPacketSize rows).2 ↔
      RoomForRows executeQuery maxPacketSize (new query) rows) := by
  have hvalues : (new query).values = rowsText [] := rfl
  obtain ⟨hsent, hsends⟩ := @insertRows_sends _ maxPacketSize _ _ hquery hvalues rows
  exact ⟨hsent, hsends, RoomForRows.of_within hquery hvalues,
    RoomForRows.within hquery hvalues (absurd rfl) hrows⟩

theorem insertRows_within_iff_houses :
    (Within 1024 ((new "INSERT INTO `house_lists` VALUES ").insertRows (fun _ => true) 1024
        ["7,256,'Eloth'", "7,257,'Sample'"]).2 ↔
      RoomForRows (fun _ => true) 1024 (new "INSERT INTO `house_lists` VALUES ")
        ["7,256,'Eloth'", "7,257,'Sample'"]) :=
  (insertRows_within_iff _ (fun _ => rfl) (by decide)).2.2

theorem two_rows_exceed {query row : String} (hquery : query.length = 53)
    (hrow : row.length = 524261) :
    (∀ r ∈ [row, row], query.length + r.length + 2 ≤ 1048576) ∧
    ¬ Within 1048576 ((new query).insertRows (fun _ => true) 1048576 [row, row]).2 := by
  constructor
  · intro r hr
    have heq : r = row := by simpa only [List.mem_cons, List.not_mem_nil, or_false, or_self] using hr
    rw [heq]
    omega
  · intro h
    have hroom := RoomForRows.of_within (fun _ => rfl) (show _ = rowsText [] from rfl) h
    have hfits : (new query).length + row.length ≤ 1048576 := by
      change query.length + row.length ≤ _
      omega
    have hfirst := @addRow_keep (fun _ => true) 1048576 (new query) [] row rfl hfits
    have hsecond := hroom.2.1
    rw [hfirst] at hsecond
    have hjoined := hsecond (rowsText_ne_empty (List.cons_ne_nil _ _)) (by
      change query.length + row.length + row.length ≤ _
      omega)
    have hlong : (rowsText ([] ++ [row])).length = row.length + 2 := length_first row
    change query.length + (rowsText ([] ++ [row])).length + row.length + 3 ≤ _ at hjoined
    omega

/-- The row of a house with many items. -/
def wideRow : String := String.ofList (List.replicate 524261 '7')

theorem length_wideRow : wideRow.length = 524261 :=
  (@String.length_ofList (List.replicate 524261 '7')).trans List.length_replicate

/-- Two rows that are counted to fit into the largest packet and do not. -/
theorem wideRows_exceed :
    (∀ row ∈ [wideRow, wideRow],
      "INSERT INTO `tile_store` (`house_id`, `data`) VALUES ".length + row.length + 2 ≤ 1048576) ∧
    ¬ Within 1048576 ((new "INSERT INTO `tile_store` (`house_id`, `data`) VALUES ").insertRows
      (fun _ => true) 1048576 [wideRow, wideRow]).2 :=
  two_rows_exceed (by decide +kernel) length_wideRow

/-! ## Rows as values -/

/-- A buffer of row values with the text that the buffer holds. -/
structure Represents {ρ : Type*} [RowText ρ] (insert : DBInsert ρ) (text : InsertText) : Prop where
  query : text.query = insert.query
  values : text.values = rowsText (insert.values.map RowText.text)
  length : text.length = insert.length

section Represents

variable {ρ : Type*} [RowText ρ] {db : Database ρ} {insert insert' : DBInsert ρ}
  {text : InsertText} {table table' : List ρ}

theorem Represents.new (query : String) :
    Represents (DBInsert.new query : DBInsert ρ) (InsertText.new query) :=
  ⟨rfl, rfl, rfl⟩

theorem Represents.execute (executeQuery : String → Bool) (h : Represents insert text)
    (hinsert : insert.execute db table = some (insert', table')) :
    Represents insert' (text.execute executeQuery).2.1 := by
  have hempty : text.values.isEmpty = insert.values.isEmpty := by
    rw [h.values, isEmpty_rowsText, List.isEmpty_map]
  unfold DBInsert.execute at hinsert
  rw [InsertText.execute, hempty]
  split_ifs at hinsert ⊢
  · cases hinsert
    exact h
  · obtain ⟨sent, -, heq⟩ := Option.map_eq_some_iff.mp hinsert
    cases heq
    exact ⟨h.query, rfl, congrArg String.length h.query⟩

/-- Adding a row to the values adds its text to the buffer. -/
theorem Represents.addRow (h : Represents insert text)
    (hquery : ∀ statement, executeQuery statement = true) {row : ρ}
    (hinsert : insert.addRow db row table = some (insert', table')) :
    Represents insert'
      (text.addRow executeQuery db.maxPacketSize (RowText.text row)).2.1 := by
  have hempty : text.values.isEmpty = insert.values.isEmpty := by
    rw [h.values, isEmpty_rowsText, List.isEmpty_map]
  unfold DBInsert.addRow at hinsert
  obtain ⟨⟨between, sent⟩, hsent, heq⟩ := Option.map_eq_some_iff.mp hinsert
  cases heq
  obtain hfull | hroom := Nat.lt_or_ge db.maxPacketSize (text.length + (RowText.text row).length)
  · obtain ⟨length, hexecute⟩ :=
      @execute_spec _ { text with length := text.length + (RowText.text row).length } _ hquery
        h.values
    have hcounted : Represents
        { insert with length := insert.length + (RowText.text row).length }
        { text with length := text.length + (RowText.text row).length } :=
      ⟨h.query, h.values, congrArg (· + _) h.length⟩
    rw [h.length] at hfull
    rw [if_pos hfull] at hsent
    have hbetween := hcounted.execute executeQuery hsent
    rw [hexecute] at hbetween
    have hvalues : between.values = [] := (DBInsert.execute_written hsent).2
    rw [addRow_of_execute hexecute (h.length ▸ hfull)]
    exact ⟨hbetween.query, by rw [hvalues]; rfl, hbetween.length⟩
  · rw [addRow_keep h.values hroom]
    rw [h.length] at hroom
    rw [if_neg (Nat.not_lt.mpr hroom)] at hsent
    cases hsent
    exact ⟨h.query, by rw [List.map_append]; rfl, congrArg (· + _) h.length⟩

end Represents

end InsertText

end Eloth
