import Eloth.Otb

/-!
# The files that are accepted

The loop over the bytes looks at markers only. It lets property bytes stand between and after the
children of a node, where no node has them, and bytes stand after the end of the root.
-/

namespace Eloth.OTB

/-- The identifier, the marker, the type and the end of a node. -/
abbrev minimalSize : Nat := identifierSize + 3

/-- A file that the constructor has let through. -/
structure Loader where
  fileContents : List UInt8
  long : minimalSize < fileContents.length

def Loader.parseTree (self : Loader) : Except LoadError Node := OTB.parseTree self.fileContents

def Plain (byte : UInt8) : Prop := byte ≠ ESCAPE ∧ byte ≠ START ∧ byte ≠ END

/-! ## One node -/

/-- Property bytes; an escape byte is followed by one byte. -/
inductive IsProps : List UInt8 → Prop
  | nil : IsProps []
  | plain {byte : UInt8} {rest : List UInt8} (h : Plain byte) (hrest : IsProps rest) :
      IsProps (byte :: rest)
  | escaped {byte : UInt8} {rest : List UInt8} (hrest : IsProps rest) :
      IsProps (ESCAPE :: byte :: rest)

mutual

/-- A node with its properties before its children. -/
inductive IsNode : List UInt8 → Prop
  | mk {type : UInt8} {props children : List UInt8} (hprops : IsProps props)
      (hchildren : IsNodes children) : IsNode (START :: type :: (props ++ (children ++ [END])))

inductive IsNodes : List UInt8 → Prop
  | nil : IsNodes []
  | cons {node rest : List UInt8} (hnode : IsNode node) (hrest : IsNodes rest) :
      IsNodes (node ++ rest)

end

/-! ## What the loop accepts -/

/-- Property bytes and nodes in any order. -/
inductive IsBody : List UInt8 → Prop
  | nil : IsBody []
  | plain {byte : UInt8} {rest : List UInt8} (h : Plain byte) (hrest : IsBody rest) :
      IsBody (byte :: rest)
  | escaped {byte : UInt8} {rest : List UInt8} (hrest : IsBody rest) :
      IsBody (ESCAPE :: byte :: rest)
  | node {type : UInt8} {body rest : List UInt8} (hbody : IsBody body) (hrest : IsBody rest) :
      IsBody (START :: type :: (body ++ END :: rest))

/-- The bytes that may follow where some nodes are open: what is left of each of them, its end,
and property bytes after the end of the root. -/
def Closes : Nat → List UInt8 → Prop
  | 0, bytes => IsProps bytes
  | n + 1, bytes => ∃ body rest, bytes = body ++ END :: rest ∧ IsBody body ∧ Closes n rest

variable {n : Nat} {byte : UInt8} {bytes rest : List UInt8}

theorem isBody_of_isProps (h : IsProps bytes) : IsBody bytes := by
  induction h with
  | nil => exact .nil
  | plain h _ ih => exact .plain h ih
  | escaped _ ih => exact .escaped ih

theorem isBody_append {bytes' : List UInt8} (h : IsBody bytes) (h' : IsBody bytes') :
    IsBody (bytes ++ bytes') := by
  induction h with
  | nil => exact h'
  | plain h _ ih => exact .plain h ih
  | escaped _ ih => exact .escaped ih
  | node hbody _ _ ih =>
    rw [List.cons_append, List.cons_append, List.append_assoc, List.cons_append]
    exact .node hbody ih

mutual

theorem body_of_isNode : ∀ {bytes : List UInt8}, IsNode bytes →
    ∃ type body, bytes = START :: type :: (body ++ [END]) ∧ IsBody body
  | _, .mk hprops hchildren =>
    ⟨_, _, by rw [← List.append_assoc],
      isBody_append (isBody_of_isProps hprops) (body_of_isNodes hchildren)⟩

theorem body_of_isNodes : ∀ {bytes : List UInt8}, IsNodes bytes → IsBody bytes
  | _, .nil => .nil
  | _, .cons hnode hrest => by
    obtain ⟨type, body, rfl, hbody⟩ := body_of_isNode hnode
    exact isBody_append (.node hbody .nil) (body_of_isNodes hrest)

end

theorem ends_of_isNodes : ∀ {bytes : List UInt8}, IsNodes bytes →
    bytes = [] ∨ ∃ before, bytes = before ++ [END]
  | _, .nil => .inl rfl
  | _, .cons hnode hrest => by
    obtain ⟨type, body, rfl, -⟩ := body_of_isNode hnode
    obtain rfl | ⟨before, rfl⟩ := ends_of_isNodes hrest
    · exact .inr ⟨START :: type :: body, by simp⟩
    · exact .inr ⟨_, (List.append_assoc _ _ _).symm⟩

theorem closes_nil : Closes n [] ↔ n = 0 := by
  cases n with
  | zero => exact ⟨fun _ => rfl, fun _ => .nil⟩
  | succ n =>
    refine ⟨?_, fun h => absurd h (Nat.succ_ne_zero n)⟩
    rintro ⟨body, rest, h, -⟩
    exact absurd h.symm (List.append_ne_nil_of_right_ne_nil body (List.cons_ne_nil _ _))

theorem closes_plain (h : Plain byte) : Closes n (byte :: rest) ↔ Closes n rest := by
  cases n with
  | zero =>
    refine ⟨fun hclose => ?_, .plain h⟩
    cases hclose with
    | plain _ hrest => exact hrest
    | escaped => exact absurd rfl h.1
  | succ n =>
    constructor
    · rintro ⟨body, after, heq, hbody, hafter⟩
      cases hbody with
      | nil => exact absurd (List.cons.inj heq).1 h.2.2
      | plain _ hbody => exact ⟨_, after, (List.cons.inj heq).2, hbody, hafter⟩
      | escaped => exact absurd (List.cons.inj heq).1 h.1
      | node => exact absurd (List.cons.inj heq).1 h.2.1
    · rintro ⟨body, after, rfl, hbody, hafter⟩
      exact ⟨byte :: body, after, rfl, .plain h hbody, hafter⟩

theorem closes_escape : Closes n (ESCAPE :: byte :: rest) ↔ Closes n rest := by
  cases n with
  | zero =>
    refine ⟨fun hclose => ?_, .escaped⟩
    cases hclose with
    | plain h => exact absurd rfl h.1
    | escaped hrest => exact hrest
  | succ n =>
    constructor
    · rintro ⟨body, after, heq, hbody, hafter⟩
      cases hbody with
      | nil => exact absurd (List.cons.inj heq).1 (by decide)
      | plain h => exact absurd (List.cons.inj heq).1.symm h.1
      | escaped hbody => exact ⟨_, after, (List.cons.inj (List.cons.inj heq).2).2, hbody, hafter⟩
      | node => exact absurd (List.cons.inj heq).1 (by decide)
    · rintro ⟨body, after, rfl, hbody, hafter⟩
      exact ⟨ESCAPE :: byte :: body, after, rfl, .escaped hbody, hafter⟩

theorem not_closes_escape : ¬ Closes n [ESCAPE] := by
  cases n with
  | zero =>
    rintro (_ | ⟨h, -⟩ | _)
    exact h.1 rfl
  | succ n =>
    rintro ⟨body, after, heq, hbody, -⟩
    cases hbody with
    | nil => exact absurd (List.cons.inj heq).1 (by decide)
    | plain h => exact absurd (List.cons.inj heq).1.symm h.1
    | escaped => exact absurd (List.cons.inj heq).2 (List.cons_ne_nil _ _).symm
    | node => exact absurd (List.cons.inj heq).1 (by decide)

theorem closes_end : Closes (n + 1) (END :: rest) ↔ Closes n rest := by
  constructor
  · rintro ⟨body, after, heq, hbody, hafter⟩
    cases hbody with
    | nil =>
      rw [(List.cons.inj heq).2]
      exact hafter
    | plain h => exact absurd (List.cons.inj heq).1.symm h.2.2
    | escaped => exact absurd (List.cons.inj heq).1 (by decide)
    | node => exact absurd (List.cons.inj heq).1 (by decide)
  · exact fun h => ⟨[], rest, rfl, .nil, h⟩

theorem not_closes_zero_marker (h : byte = START ∨ byte = END) : ¬ Closes 0 (byte :: rest) := by
  rintro (_ | ⟨hplain, -⟩ | _)
  · exact h.elim hplain.2.1 hplain.2.2
  · exact absurd h (by decide)

/-- A child is one node more to be closed. -/
theorem closes_start : Closes (n + 1) (START :: byte :: rest) ↔ Closes (n + 2) rest := by
  constructor
  · rintro ⟨body, after, heq, hbody, hafter⟩
    cases hbody with
    | nil => exact absurd (List.cons.inj heq).1 (by decide)
    | plain h => exact absurd (List.cons.inj heq).1.symm h.2.1
    | escaped => exact absurd (List.cons.inj heq).1 (by decide)
    | node hinner houter =>
      have hrest := (List.cons.inj (List.cons.inj heq).2).2
      exact ⟨_, _, hrest.trans (List.append_assoc _ _ _), hinner, _, after, rfl, houter, hafter⟩
  · rintro ⟨inner, -, rfl, hinner, outer, after, rfl, houter, hafter⟩
    refine ⟨START :: byte :: (inner ++ END :: outer), after, ?_, .node hinner houter, hafter⟩
    rw [List.cons_append, List.cons_append, List.append_assoc, List.cons_append]

theorem not_closes_start : ¬ Closes (n + 1) [START] := by
  rintro ⟨body, after, heq, hbody, -⟩
  cases hbody with
  | nil => exact absurd (List.cons.inj heq).1 (by decide)
  | plain h => exact absurd (List.cons.inj heq).1.symm h.2.1
  | escaped => exact absurd (List.cons.inj heq).1 (by decide)
  | node => exact absurd (List.cons.inj heq).2 (List.cons_ne_nil _ _).symm

/-! ## The loop -/

theorem not_ok_iff {e : LoadError} (h : ¬ Closes n bytes) :
    (∃ node : Node, (Except.error e : Except LoadError Node) = .ok node) ↔ Closes n bytes :=
  iff_of_false (fun ⟨_, herror⟩ => nomatch herror) h

/-- The loop accepts what closes the open nodes; once the root has ended it is there. -/
theorem parseLoop_ok_iff (it : Nat) (bytes : List UInt8) (parseStack : List OpenNode)
    (root : Option Node) (hroot : parseStack = [] → root.isSome) :
    (∃ node, parseLoop it bytes parseStack root = .ok node) ↔ Closes parseStack.length bytes := by
  fun_induction parseLoop it bytes parseStack root with
  | case1 it node => exact ⟨fun _ => .nil, fun _ => ⟨node, rfl⟩⟩
  | case2 it parseStack root hnot =>
    refine not_ok_iff fun hclose => ?_
    have hempty := List.length_eq_zero_iff.mp (closes_nil.mp hclose)
    obtain ⟨node, hnode⟩ := Option.isSome_iff_exists.mp (hroot hempty)
    exact hnot node hempty hnode
  | case3 it root currentNode parents type rest ih =>
    rw [ih fun h => absurd h (List.cons_ne_nil _ _)]
    exact closes_start.symm
  | case4 it parseStack root rest hnot =>
    refine not_ok_iff fun hclose => ?_
    cases parseStack with
    | nil => exact not_closes_zero_marker (.inl rfl) hclose
    | cons currentNode parents =>
      cases rest with
      | nil => exact not_closes_start hclose
      | cons type rest => exact hnot currentNode parents type rest rfl rfl
  | case5 => exact not_ok_iff (not_closes_zero_marker (.inr rfl))
  | case6 it root rest currentNode _ ih =>
    rw [ih fun _ => rfl]
    exact closes_end.symm
  | case7 it root rest currentNode parent parents _ ih =>
    rw [ih fun h => absurd h (List.cons_ne_nil _ _)]
    exact closes_end.symm
  | case8 => exact not_ok_iff not_closes_escape
  | case9 it parseStack root byte rest _ _ ih =>
    rw [ih hroot]
    exact closes_escape.symm
  | case10 it parseStack root byte rest hstart hend hescape ih =>
    rw [ih hroot]
    exact (closes_plain ⟨hescape, hstart, hend⟩).symm

/-- The files that are accepted: the root with property bytes and children in any order, and
property bytes after its end. -/
def Accepted (contents : List UInt8) : Prop :=
  ∃ type body trailing, contents.drop identifierSize = START :: type :: (body ++ END :: trailing) ∧
    IsBody body ∧ IsProps trailing

/-- The files of one node and nothing else are among them, and every other file is refused. -/
theorem parseTree_accepts (self : Loader) :
    ((∃ root, self.parseTree = .ok root) ↔ Accepted self.fileContents) ∧
    (¬ Accepted self.fileContents → self.parseTree = .error .invalidOTBFormat) ∧
    (IsNode (self.fileContents.drop identifierSize) → Accepted self.fileContents) := by
  have hiff : (∃ root, self.parseTree = .ok root) ↔ Accepted self.fileContents := by
    obtain ⟨contents, hlong⟩ := self
    unfold Loader.parseTree OTB.parseTree Accepted
    have hrest : 3 < (contents.drop identifierSize).length := by
      have hlong' : 7 < contents.length := hlong
      rw [List.length_drop]
      change 3 < contents.length - 4
      omega
    match hdrop : contents.drop identifierSize with
    | start :: type :: bytes =>
      by_cases hstart : start = START
      · simp only [if_pos hstart]
        rw [parseLoop_ok_iff _ _ _ _ fun h => absurd h (List.cons_ne_nil _ _), hstart]
        constructor
        · rintro ⟨body, trailing, rfl, hbody, htrailing⟩
          exact ⟨type, body, trailing, rfl, hbody, htrailing⟩
        · rintro ⟨type', body, trailing, heq, hbody, htrailing⟩
          exact ⟨body, trailing, (List.cons.inj (List.cons.inj heq).2).2, hbody, htrailing⟩
      · simp only [if_neg hstart]
        refine iff_of_false (fun ⟨_, herror⟩ => nomatch herror) ?_
        rintro ⟨type', body, trailing, heq, -⟩
        exact hstart (List.cons.inj heq).1
    | [] | [_] =>
      rw [hdrop] at hrest
      simp at hrest
  refine ⟨hiff, fun hnot => ?_, ?_⟩
  · cases hparse : self.parseTree with
    | ok root => exact absurd (hiff.mp ⟨root, hparse⟩) hnot
    | error e => rfl
  · intro hnode
    obtain ⟨type, body, heq, hbody⟩ := body_of_isNode hnode
    exact ⟨type, body, [], heq, hbody, .nil⟩

/-- A node without properties and children, and one byte more. -/
def trailingByte : Loader := ⟨[0, 0, 0, 0, START, 0, END, 0], by decide⟩

/-- A node with a property byte behind its only child. -/
def lateProperty : Loader := ⟨[0, 0, 0, 0, START, 0, START, 0, END, 7, END], by decide⟩

theorem accepts_more_than_nodes :
    ((∃ root, trailingByte.parseTree = .ok root) ∧
      ¬ IsNode (trailingByte.fileContents.drop identifierSize)) ∧
    ((∃ root, lateProperty.parseTree = .ok root) ∧
      ¬ IsNode (lateProperty.fileContents.drop identifierSize)) := by
  refine ⟨⟨⟨_, rfl⟩, fun hnode => ?_⟩, ⟨⟨_, rfl⟩, fun hnode => ?_⟩⟩
  · obtain ⟨type, body, heq, -⟩ := body_of_isNode hnode
    have hlast := congrArg List.getLast? heq
    rw [← List.cons_append, ← List.cons_append, List.getLast?_concat] at hlast
    exact absurd hlast (by decide)
  · generalize hbytes : lateProperty.fileContents.drop identifierSize = bytes at hnode
    obtain ⟨hprops, hchildren⟩ := hnode
    have htail := (List.cons.inj (List.cons.inj hbytes).2).2
    obtain rfl | ⟨before, rfl⟩ := ends_of_isNodes hchildren
    · have hfront := @List.append_cancel_right UInt8 [START, 0, END, 7] [END] _ htail
      rw [← hfront] at hprops
      cases hprops with
      | plain h => exact h.2.1 rfl
    · have hlast := congrArg (fun bytes => bytes.dropLast.getLast?) htail
      simp only [← List.append_assoc, List.dropLast_concat, List.getLast?_concat] at hlast
      exact absurd hlast (by decide)

end Eloth.OTB
