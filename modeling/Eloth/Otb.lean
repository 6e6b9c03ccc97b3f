import Mathlib.Data.List.Basic
import Mathlib.Data.Vector.Basic

/-!
# OTB trees

A file holds an identifier and a tree of nodes. Every node begins with a marker and its type,
continues with its properties and its children, and ends with a marker. An escape byte stands
before every property byte that is a marker or an escape byte.
-/

namespace Eloth.OTB

abbrev ESCAPE : UInt8 := 0xFD
abbrev START : UInt8 := 0xFE
abbrev END : UInt8 := 0xFF

abbrev identifierSize : Nat := 4

abbrev Identifier := List.Vector UInt8 identifierSize

/-- The properties are the bytes of the file between two positions. -/
inductive Node where
  | mk (type : UInt8) (propsBegin propsEnd : Nat) (children : List Node)

namespace Node

def type : Node → UInt8 | mk type _ _ _ => type
def propsBegin : Node → Nat | mk _ propsBegin _ _ => propsBegin
def propsEnd : Node → Nat | mk _ _ propsEnd _ => propsEnd
def children : Node → List Node | mk _ _ _ children => children

end Node

inductive LoadError where
  | invalidOTBFormat
  deriving DecidableEq

/-- A node whose end has not been read yet. It joins the children of the node below it on the
stack when it ends; the source has it there from the beginning. -/
structure OpenNode where
  type : UInt8
  propsBegin : Nat
  propsEnd : Nat
  children : List Node

namespace OpenNode

def start (type : UInt8) (propsBegin : Nat) : OpenNode where
  type := type
  propsBegin := propsBegin
  propsEnd := 0
  children := []

/-- The marker at `it` ends the properties if no child has begun. -/
def endProps (node : OpenNode) (it : Nat) : OpenNode :=
  if node.children.isEmpty then { node with propsEnd := it } else node

def addChild (node : OpenNode) (child : Node) : OpenNode :=
  { node with children := node.children ++ [child] }

def close (node : OpenNode) : Node := ⟨node.type, node.propsBegin, node.propsEnd, node.children⟩

end OpenNode

def parseLoop (it : Nat) (bytes : List UInt8) (parseStack : List OpenNode) (root : Option Node) :
    Except LoadError Node :=
  match bytes with
  | [] =>
    match parseStack, root with
    | [], some root => .ok root
    | _, _ => .error .invalidOTBFormat
  | byte :: rest =>
    if byte = START then
      match parseStack, rest with
      | currentNode :: parents, type :: rest =>
        parseLoop (it + 2) rest (.start type (it + 2) :: currentNode.endProps it :: parents) root
      | _, _ => .error .invalidOTBFormat
    else if byte = END then
      match parseStack with
      | [] => .error .invalidOTBFormat
      | [currentNode] => parseLoop (it + 1) rest [] (some (currentNode.endProps it).close)
      | currentNode :: parent :: parents =>
        parseLoop (it + 1) rest (parent.addChild (currentNode.endProps it).close :: parents) root
    else if byte = ESCAPE then
      match rest with
      | [] => .error .invalidOTBFormat
      | _ :: rest => parseLoop (it + 2) rest parseStack root
    else parseLoop (it + 1) rest parseStack root

def parseTree (fileContents : List UInt8) : Except LoadError Node :=
  match fileContents.drop identifierSize with
  | start :: type :: bytes =>
    if start = START then
      parseLoop (identifierSize + 2) bytes [.start type (identifierSize + 2)] none
    else .error .invalidOTBFormat
  | _ => .error .invalidOTBFormat

def copyUnescaped : Bool → List UInt8 → List UInt8
  | _, [] => []
  | lastEscaped, byte :: bytes =>
    let lastEscaped := byte == ESCAPE && !lastEscaped
    if !lastEscaped then byte :: copyUnescaped lastEscaped bytes
    else copyUnescaped lastEscaped bytes

def getProps (fileContents : List UInt8) (node : Node) : Option (List UInt8) :=
  let span := (fileContents.drop node.propsBegin).take (node.propsEnd - node.propsBegin)
  if span.length = 0 then none else some (copyUnescaped false span)

/-! ## Trees and their encoding -/

inductive Tree where
  | node (type : UInt8) (props : List UInt8) (children : List Tree)

def escape (props : List UInt8) : List UInt8 :=
  props.flatMap fun byte =>
    if byte = ESCAPE ∨ byte = START ∨ byte = END then [ESCAPE, byte] else [byte]

mutual

def encode : Tree → List UInt8
  | .node type props children => START :: type :: (escape props ++ (encodeAll children ++ [END]))

def encodeAll : List Tree → List UInt8
  | [] => []
  | tree :: trees => encode tree ++ encodeAll trees

end

/-- The node stands for the tree in the file: the types agree, the children agree in order, and
the properties are read back where there are any. -/
inductive Describes (fileContents : List UInt8) : Node → Tree → Prop
  | node {n : Node} {props : List UInt8} {trees : List Tree}
      (hprops : getProps fileContents n = if props = [] then none else some props)
      (hchildren : List.Forall₂ (Describes fileContents) n.children trees) :
      Describes fileContents n (.node n.type props trees)

/-! ## Parsing the encoding -/

variable {it : Nat} {stack : List OpenNode} {root : Option Node}

theorem escape_cons (byte : UInt8) (props : List UInt8) :
    escape (byte :: props) =
      (if byte = ESCAPE ∨ byte = START ∨ byte = END then [ESCAPE, byte] else [byte]) ++
        escape props := List.flatMap_cons

theorem copyUnescaped_escape (props : List UInt8) : copyUnescaped false (escape props) = props := by
  induction props with
  | nil => rfl
  | cons byte props ih =>
    rw [escape_cons]
    split_ifs with h
    · simp [copyUnescaped, ih]
    · have hbyte : (byte == ESCAPE) = false := beq_false_of_ne fun he => h (.inl he)
      simp [copyUnescaped, hbyte, ih]

theorem escape_eq_nil {props : List UInt8} : escape props = [] ↔ props = [] := by
  cases props with
  | nil => simp [escape]
  | cons byte props =>
    rw [escape_cons]
    split_ifs <;> simp

theorem parseLoop_escape (props rest : List UInt8) :
    parseLoop it (escape props ++ rest) stack root =
      parseLoop (it + (escape props).length) rest stack root := by
  induction props generalizing it with
  | nil => rfl
  | cons byte props ih =>
    rw [escape_cons]
    split_ifs with h
    · rw [List.append_assoc, List.cons_append, List.cons_append, List.nil_append, parseLoop.eq_def]
      simp only [show ESCAPE ≠ START by decide, show ESCAPE ≠ END by decide, if_false, if_true]
      rw [ih, List.length_append, ← Nat.add_assoc]
      rfl
    · rw [not_or, not_or] at h
      rw [List.append_assoc, List.cons_append, List.nil_append, parseLoop.eq_def]
      simp only [if_neg h.1, if_neg h.2.1, if_neg h.2.2]
      rw [ih, List.length_append, ← Nat.add_assoc]
      rfl

mutual

def nodeAt (it : Nat) : Tree → Node
  | .node type props children =>
    ⟨type, it + 2, it + 2 + (escape props).length,
      nodesAt (it + 2 + (escape props).length) children⟩

def nodesAt (it : Nat) : List Tree → List Node
  | [] => []
  | tree :: trees => nodeAt it tree :: nodesAt (it + (encode tree).length) trees

end

def OpenNode.addTrees (node : OpenNode) (it : Nat) : List Tree → OpenNode
  | [] => node
  | tree :: trees =>
    ((node.endProps it).addChild (nodeAt it tree)).addTrees (it + (encode tree).length) trees

theorem OpenNode.addTrees_of_children {node : OpenNode} (h : node.children ≠ [])
    (trees : List Tree) :
    node.addTrees it trees = { node with children := node.children ++ nodesAt it trees } := by
  induction trees generalizing node it with
  | nil => simp [addTrees, nodesAt]
  | cons tree trees ih =>
    have hend : node.endProps it = node := by simp [endProps, h]
    rw [addTrees, hend, ih (by simp [addChild])]
    simp [addChild, nodesAt]

theorem OpenNode.close_addTrees (type : UInt8) (propsBegin : Nat) (trees : List Tree) :
    (((OpenNode.start type propsBegin).addTrees it trees).endProps
      (it + (encodeAll trees).length)).close = ⟨type, propsBegin, it, nodesAt it trees⟩ := by
  cases trees with
  | nil => simp [addTrees, start, endProps, close, encodeAll, nodesAt]
  | cons tree trees =>
    rw [addTrees, addTrees_of_children (by simp [addChild])]
    simp [start, endProps, close, addChild, nodesAt]

theorem parseLoop_start (type : UInt8) (bytes : List UInt8) (current : OpenNode) :
    parseLoop it (START :: type :: bytes) (current :: stack) root =
      parseLoop (it + 2) bytes (.start type (it + 2) :: current.endProps it :: stack) root := by
  rw [parseLoop.eq_def]
  rfl

theorem parseLoop_end (bytes : List UInt8) (current parent : OpenNode) :
    parseLoop it (END :: bytes) (current :: parent :: stack) root =
      parseLoop (it + 1) bytes (parent.addChild (current.endProps it).close :: stack) root := by
  rw [parseLoop.eq_def]
  rfl

theorem parseLoop_end_root (bytes : List UInt8) (current : OpenNode) :
    parseLoop it (END :: bytes) [current] root =
      parseLoop (it + 1) bytes [] (some (current.endProps it).close) := by
  rw [parseLoop.eq_def]
  rfl

mutual

theorem parseLoop_encode (tree : Tree) (it : Nat) (rest : List UInt8) (current : OpenNode)
    (stack : List OpenNode) :
    parseLoop it (encode tree ++ rest) (current :: stack) root =
      parseLoop (it + (encode tree).length) rest
        ((current.endProps it).addChild (nodeAt it tree) :: stack) root := by
  match tree with
  | .node type props trees =>
    rw [encode, List.cons_append, List.cons_append, List.append_assoc, parseLoop_start,
      parseLoop_escape, List.append_assoc, parseLoop_encodeAll trees, List.cons_append,
      List.nil_append, parseLoop_end, OpenNode.close_addTrees]
    congr 1
    simp only [List.length_cons, List.length_append, List.length_nil]
    omega

theorem parseLoop_encodeAll (trees : List Tree) (it : Nat) (rest : List UInt8)
    (current : OpenNode) (stack : List OpenNode) :
    parseLoop it (encodeAll trees ++ rest) (current :: stack) root =
      parseLoop (it + (encodeAll trees).length) rest (current.addTrees it trees :: stack) root := by
  match trees with
  | [] => rfl
  | tree :: trees =>
    rw [encodeAll, List.append_assoc, parseLoop_encode tree, parseLoop_encodeAll trees,
      OpenNode.addTrees, List.length_append, Nat.add_assoc]

end

theorem parseTree_encode (identifier : Identifier) (tree : Tree) :
    parseTree (identifier.toList ++ encode tree) = .ok (nodeAt identifierSize tree) := by
  match tree with
  | .node type props trees =>
    have hdrop : (identifier.toList ++ encode (.node type props trees)).drop identifierSize =
        encode (.node type props trees) :=
      List.drop_left' identifier.toList_length
    unfold parseTree
    rw [hdrop, encode]
    simp only [if_true]
    rw [parseLoop_escape, parseLoop_encodeAll, parseLoop_end_root, OpenNode.close_addTrees]
    rfl

/-! ## Reading the properties -/

theorem getProps_of_span {contents props : List UInt8} {n : Node} (before after : List UInt8)
    (hcontents : contents = before ++ (escape props ++ after))
    (hbegin : n.propsBegin = before.length)
    (hend : n.propsEnd = before.length + (escape props).length) :
    getProps contents n = if props = [] then none else some props := by
  have hspan : (contents.drop n.propsBegin).take (n.propsEnd - n.propsBegin) = escape props := by
    rw [hend, hbegin, hcontents, List.drop_left, Nat.add_sub_cancel_left, List.take_left]
  unfold getProps
  simp only [hspan, copyUnescaped_escape]
  simp only [List.length_eq_zero_iff, escape_eq_nil]

mutual

theorem describes_nodeAt (tree : Tree) (contents before after : List UInt8)
    (h : contents = before ++ (encode tree ++ after)) :
    Describes contents (nodeAt before.length tree) tree := by
  match tree with
  | .node type props trees =>
    rw [encode] at h
    refine .node (getProps_of_span (before ++ [START, type])
      (encodeAll trees ++ [END] ++ after) ?_ ?_ ?_) ?_
    · rw [h]
      simp
    · simp [nodeAt, Node.propsBegin]
    · simp [nodeAt, Node.propsEnd]
    · have hchildren := describesAll_nodesAt trees contents
        (before ++ START :: type :: escape props) (END :: after) (by rw [h]; simp)
      have hlen : (before ++ START :: type :: escape props).length =
          before.length + 2 + (escape props).length := by
        simp only [List.length_append, List.length_cons]
        omega
      rw [hlen] at hchildren
      exact hchildren

theorem describesAll_nodesAt (trees : List Tree) (contents before after : List UInt8)
    (h : contents = before ++ (encodeAll trees ++ after)) :
    List.Forall₂ (Describes contents) (nodesAt before.length trees) trees := by
  match trees with
  | [] => exact .nil
  | tree :: trees =>
    rw [encodeAll, List.append_assoc] at h
    refine .cons (describes_nodeAt tree _ _ _ h) ?_
    rw [← List.length_append]
    exact describesAll_nodesAt trees _ _ after (by rw [h, List.append_assoc])

end

/-- Parsing the encoding of a tree gives the tree back, with its properties. -/
theorem parseTree_encode_describes (identifier : Identifier) (tree : Tree) :
    ∃ root, parseTree (identifier.toList ++ encode tree) = .ok root ∧
      Describes (identifier.toList ++ encode tree) root tree := by
  have hdescribes := describes_nodeAt tree _ identifier.toList []
    (congrArg (identifier.toList ++ ·) (List.append_nil (encode tree)).symm)
  rw [identifier.toList_length] at hdescribes
  exact ⟨_, parseTree_encode identifier tree, hdescribes⟩

end Eloth.OTB
