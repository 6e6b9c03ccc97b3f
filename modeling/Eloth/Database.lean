import Mathlib.Data.List.Basic

/-!
# Batched insertions

`DBInsert` collects rows in a buffer and sends them in one statement, as soon as the statement
would exceed the largest packet or at the end. A row is kept as a value together with the text
that stands for it in the statement.
-/

namespace Eloth

/-- A row of a table and its text between the brackets of an insertion. -/
class RowText (ρ : Type*) where
  text : ρ → String

/-- The connection to the server, for the statements on one table. The server may refuse a
statement, which then changes nothing. -/
structure Database (ρ : Type*) where
  maxPacketSize : Nat
  begins : Bool
  deletes : List ρ → Bool
  inserts : List ρ → List ρ → Bool
  commits : List ρ → Bool

namespace Database

variable {ρ : Type*}

def deleteFrom (db : Database ρ) (table : List ρ) : Option (List ρ) :=
  if db.deletes table then some [] else none

def insertInto (db : Database ρ) (rows table : List ρ) : Option (List ρ) :=
  if db.inserts rows table then some (table ++ rows) else none

end Database

structure DBInsert (ρ : Type*) where
  query : String
  values : List ρ
  length : Nat

namespace DBInsert

variable {ρ : Type*}

def new (query : String) : DBInsert ρ where
  query := query
  values := []
  length := query.length

def execute (db : Database ρ) (self : DBInsert ρ) (table : List ρ) :
    Option (DBInsert ρ × List ρ) :=
  if self.values.isEmpty then some (self, table)
  else
    (db.insertInto self.values table).map fun table =>
      ({ self with values := [], length := self.query.length }, table)

def addRow [RowText ρ] (db : Database ρ) (self : DBInsert ρ) (row : ρ) (table : List ρ) :
    Option (DBInsert ρ × List ρ) :=
  let self := { self with length := self.length + (RowText.text row).length }
  (if self.length > db.maxPacketSize then self.execute db table else some (self, table)).map
    fun (self, table) => ({ self with values := self.values ++ [row] }, table)

/-- The calls of `addRow` in a loop that stops at the first failure. -/
def addRows [RowText ρ] (db : Database ρ) : DBInsert ρ → List ρ → List ρ →
    Option (DBInsert ρ × List ρ)
  | self, [], table => some (self, table)
  | self, row :: rows, table => do
    let (self, table) ← self.addRow db row table
    self.addRows db rows table

variable {db : Database ρ} {self self' : DBInsert ρ} {rows table table' : List ρ} {row : ρ}

def written (self : DBInsert ρ) (table : List ρ) : List ρ := table ++ self.values

theorem execute_written (h : self.execute db table = some (self', table')) :
    table' = self.written table ∧ self'.values = [] := by
  unfold execute at h
  split_ifs at h with hempty
  · cases h
    have hnil : self.values = [] := List.isEmpty_iff.mp hempty
    exact ⟨by simp [written, hnil], hnil⟩
  · simp only [Option.map_eq_some_iff, Database.insertInto] at h
    obtain ⟨sent, hsent, heq⟩ := h
    split_ifs at hsent
    cases hsent
    cases heq
    exact ⟨rfl, rfl⟩

theorem addRow_written [RowText ρ] (h : self.addRow db row table = some (self', table')) :
    self'.written table' = self.written table ++ [row] := by
  unfold addRow at h
  simp only [Option.map_eq_some_iff] at h
  obtain ⟨⟨between, sent⟩, hsent, heq⟩ := h
  cases heq
  split_ifs at hsent
  · obtain ⟨htable, hvalues⟩ := execute_written hsent
    simp [written, htable, hvalues]
  · cases hsent
    simp [written]

theorem addRows_written [RowText ρ] (h : self.addRows db rows table = some (self', table')) :
    self'.written table' = self.written table ++ rows := by
  induction rows generalizing self table with
  | nil =>
    cases h
    simp
  | cons row rows ih =>
    simp only [addRows, Option.bind_eq_bind, Option.bind_eq_some_iff] at h
    obtain ⟨⟨between, sent⟩, hrow, hrest⟩ := h
    rw [ih hrest, addRow_written hrow]
    simp

section Accepting

variable (h : ∀ rows table, db.inserts rows table = true)

include h

theorem execute_isSome (self : DBInsert ρ) (table : List ρ) :
    (self.execute db table).isSome := by
  unfold execute
  split_ifs <;> simp [Database.insertInto, h]

theorem addRows_isSome [RowText ρ] (self : DBInsert ρ) (rows table : List ρ) :
    (self.addRows db rows table).isSome := by
  induction rows generalizing self table with
  | nil => rfl
  | cons row rows ih =>
    have hrow : (self.addRow db row table).isSome := by
      unfold addRow
      simp only [Option.isSome_map]
      split_ifs
      · exact execute_isSome h _ _
      · rfl
    obtain ⟨⟨self', table'⟩, hrow⟩ := Option.isSome_iff_exists.mp hrow
    simp only [addRows, hrow, Option.bind_eq_bind, Option.bind_some]
    exact ih self' table'

end Accepting

end DBInsert

end Eloth
