import DriversFramework.HcAst

/-! `Build`, `Copy`, `Move` and the walks of `Ast::Expand` (`ast.cpp`, `ast.h`). A
loop that follows pointers takes the number of rounds it may make. -/
namespace DriversFramework.HcAst

inductive Stop where
 | returnsFalse
 | crash
 | noReturn
 deriving DecidableEq

abbrev Result := Except Stop AstHeap

/-- What the copy constructors keep of an object. A copied term is not bound. -/
def AstObject.copied (o : AstObject) : AstObject :=
 match o.type with
 | .confNode =>
  { type := .confNode, name := o.name, nodeType := o.nodeType, refNodePath := o.refNodePath }
 | .confTerm => { type := .confTerm, name := o.name }
 | .array =>
  { type := .array, name := [], arraySize := o.arraySize, arrayType := o.arrayType }
 | type =>
  { type := type, name := o.name, stringValue := o.stringValue, integerValue := o.integerValue }

/-- `AddChild(AstObjectFactory::Build(child))` for each of `children`, in turn. -/
def buildChildren : ℕ → AstHeap → ℕ → List ℕ → Result
 | _, h, _, [] => .ok h
 | 0, _, _, _ :: _ => .error .noReturn
 | fuel + 1, h, dst, child :: children => do
  let new := h.size
  let h' ← buildChildren fuel (h.alloc (h.get child).copied) new (h.get child).children
  buildChildren fuel (h'.addChild dst new) dst children

/-- `AstObject::Copy` and `ConfigArray::Copy` with `overwrite`. The loop of the latter
never goes on to the next element. -/
def overwriteValue (h : AstHeap) (dst src : ℕ) : Result :=
 if (h.get dst).type = .array then
  if (h.get src).children = [] then .ok (h.modify dst fun o => o.setChildren [])
  else .error .noReturn
 else
  .ok (h.modify dst fun o =>
   { o with integerValue := (h.get src).integerValue, stringValue := (h.get src).stringValue })

def copyTerm (h : AstHeap) (dst src : ℕ) (overwrite : Bool) : Result :=
 if overwrite then
  match h.child dst, h.child src with
  | some value, some srcValue =>
   if (h.get value).type ≠ (h.get srcValue).type ∧
     (!(h.get value).isNumber || !(h.get srcValue).isNumber) then .error .returnsFalse
   else overwriteValue h value srcValue
  | _, _ => .error .crash
 else .ok h

/-- `ConfigNode::Copy` from the child `child` of the source on. -/
def copyNode : ℕ → AstHeap → ℕ → Option ℕ → Bool → Result
 | _, h, _, none, _ => .ok h
 | 0, _, _, some _, _ => .error .noReturn
 | fuel + 1, h, dst, some child, overwrite => do
  let h ← match h.lookupChild dst (h.get child).name (some (h.get child).type) with
   | none => buildChildren fuel h dst [child]
   | some peer =>
    if (h.get peer).isNode then copyNode fuel h peer (h.child child) overwrite
    else if (h.get peer).isTerm then copyTerm h peer child overwrite
    else if overwrite then overwriteValue h peer child
    else .ok h
  copyNode fuel h dst (h.next child) overwrite

/-- `AstObject::Move` to a value object; there may be nothing to move. -/
def moveValue (h : AstHeap) (dst : ℕ) : Option ℕ → Result
 | none => .error (if (h.get dst).type = .array then .crash else .returnsFalse)
 | some src => do
  let h ← overwriteValue h dst src
  return h.separate src

def move (fuel : ℕ) (h : AstHeap) (dst src : ℕ) : Result :=
 if (h.get dst).isNode then do
  let h ← copyNode fuel h dst (h.child src) true
  return h.separate src
 else if (h.get dst).isTerm then
  match h.child dst with
  | none => .error .crash
  | some value => moveValue h value (h.child src)
 else moveValue h dst (some src)

def dot : UInt8 := 0x2E

/-- The loop of `SplitNodePath`, with `temp` and `splitList` as they stand. -/
def splitNodePathFrom (path : Str) : Str → Str → List Str → List Str
 | [], temp, splitList => splitList ++ [if temp = [] then path else temp]
 | c :: rest, temp, splitList =>
  if c ≠ dot then splitNodePathFrom path rest (temp ++ [c]) splitList
  else if temp = [] then [path]
  else splitNodePathFrom path rest [] (splitList ++ [temp])

def splitNodePath (path : Str) : List Str := splitNodePathFrom path path [] []

/-- `Ast::Lookup`: among the peers of `startObj`, or from the root. -/
def lookup (h : AstHeap) (astRoot startObj : ℕ) (path : Str) : Option ℕ :=
 if dot ∉ path then (h.get startObj).parent.bind fun p => h.lookupChild p path none
 else
  match splitNodePath path with
  | [] => none
  | front :: rest =>
   if front ≠ (h.get astRoot).name then none
   else rest.foldl (fun target name => target.bind fun t => h.lookupChild t name none)
    (some astRoot)

def isElders : ℕ → AstHeap → ℕ → Option ℕ → Except Stop Bool
 | _, _, _, none => .ok false
 | 0, _, _, some _ => .error .noReturn
 | fuel + 1, h, a, some p => if p = a then .ok true else isElders fuel h a (h.get p).parent

/-- `ConfigNode::RefExpand`. A reference that names nothing is reported once
`IsElders` has found no elder. -/
def nodeRefExpand (fuel : ℕ) (h : AstHeap) (node : ℕ) : Option ℕ → Result
 | none => .error .returnsFalse
 | some ref => do
  if ← isElders fuel h ref (some node) then .error .returnsFalse
  else if (h.get node).nodeType = .ref then move fuel h ref node
  else if (h.get node).nodeType = .copy then
   copyNode fuel (h.modify node fun o => { o with nodeType := .noRef }) node (h.child ref) false
  else return h

def refersTo (o : AstObject) : Bool :=
 o.isNode && o.nodeType ≠ .ref && o.nodeType ≠ .template && o.nodeType ≠ .delete

/-- `ConfigTerm::RefExpand` of a term that holds a node reference. -/
def termRefExpand (h : AstHeap) (term : ℕ) : Option ℕ → Result
 | none => .error .returnsFalse
 | some ref =>
  if refersTo (h.get ref) then .ok (h.modify term fun o => { o with refNode := some ref })
  else .error .returnsFalse

def nodeExpandAt (fuel : ℕ) (astRoot : ℕ) (h : AstHeap) (current : ℕ) : Result :=
 let o := h.get current
 if o.isNode then
  if o.nodeType = .delete then .ok (h.remove current)
  else if o.nodeType ≠ .ref ∧ o.nodeType ≠ .copy then .ok h
  else nodeRefExpand fuel h current (lookup h astRoot current o.refNodePath)
 else if o.isTerm then
  match h.child current with
  | none => .error .crash
  | some value =>
   if (h.get value).type = .delete then .ok (h.remove current)
   else if (h.get value).type = .nodeRef then
    termRefExpand h current (lookup h astRoot current (h.get value).stringValue)
   else .ok h
 else .ok h

/-- `ConfigNode::Compare`, from some of the children of `node` on; the other node is
only named in the error. -/
def compare : ℕ → AstHeap → ℕ → List ℕ → Except Stop Bool
 | _, _, _, [] => .ok true
 | 0, _, _, _ :: _ => .error .noReturn
 | fuel + 1, h, node, objChild :: rest =>
  match h.lookupChild node (h.get objChild).name (some (h.get objChild).type) with
  | none => .ok false
  | some _ =>
   if (h.get objChild).isNode then compare fuel h objChild (h.get objChild).children
   else compare fuel h node rest

/-- The template counts `node` among the nodes that inherit from it. -/
def addSubClass (h : AstHeap) (node template : ℕ) : AstHeap :=
 let index := (h.get template).inheritCount
 (h.modify node fun o => { o with inheritIndex := index }).modify template fun o =>
  { o with inheritCount := index + 1, subClasses := o.subClasses ++ [node] }

def inheritExpand (fuel : ℕ) (h : AstHeap) (node : ℕ) : Option ℕ → Result
 | none => .error .returnsFalse
 | some ref => do
  let h ← copyNode fuel h node (h.child ref) false
  if (h.get ref).isNode then
   if ← compare fuel h node (h.get node).children then return addSubClass h node ref
   else .error .returnsFalse
  else .error .crash

def inheritExpandAt (fuel : ℕ) (astRoot : ℕ) (h : AstHeap) (current : ℕ) : Result :=
 let o := h.get current
 if o.isNode ∧ o.nodeType = .inherit then
  inheritExpand fuel h current (lookup h astRoot current o.refNodePath)
 else .ok h

def redefineCheckAt (h : AstHeap) (current : ℕ) : Result :=
 if (h.get current).isNode ∧ ¬ ((h.get current).children.map fun c => (h.get c).name).Nodup then
  .error .returnsFalse
 else .ok h

section Walks

variable (callback : AstHeap → ℕ → Result)

/-- `WalkBackward` over an object and the peers behind it: an object comes after its
children, and its next peer is read before it is called back. -/
def walkBackward : ℕ → AstHeap → Option ℕ → Result
 | _, h, none => .ok h
 | 0, _, some _ => .error .noReturn
 | fuel + 1, h, some current => do
  let h ← walkBackward fuel h (h.child current)
  let next := h.next current
  let h ← callback h current
  walkBackward fuel h next

/-- `WalkForward` over an object and the peers behind it: an object comes before its
children. -/
def walkForward : ℕ → AstHeap → Option ℕ → Result
 | _, h, none => .ok h
 | 0, _, some _ => .error .noReturn
 | fuel + 1, h, some current => do
  let h ← callback h current
  let h ← walkForward fuel h (h.child current)
  walkForward fuel h (h.next current)

end Walks

namespace Ast

def redefineCheck (fuel : ℕ) (ast : Ast) : Except Stop Ast :=
 if ast.redefineChecked then .ok ast
 else do
  let h ← walkForward redefineCheckAt fuel ast.heap (some ast.astRoot)
  return { ast with heap := h, redefineChecked := true }

def nodeExpand (fuel : ℕ) (ast : Ast) : Except Stop Ast := do
 let h ← walkBackward (nodeExpandAt fuel ast.astRoot) fuel ast.heap (some ast.astRoot)
 return { ast with heap := h }

def inheritExpand (fuel : ℕ) (ast : Ast) : Except Stop Ast := do
 let h ← walkForward (inheritExpandAt fuel ast.astRoot) fuel ast.heap (some ast.astRoot)
 return { ast with heap := h }

def moduleName : Str := [0x6D, 0x6F, 0x64, 0x75, 0x6C, 0x65]

def expand (fuel : ℕ) (ast : Ast) : Except Stop Ast := do
 let ast ← ast.redefineCheck fuel
 match ast.heap.lookupChild ast.astRoot moduleName (some .confTerm) with
 | none => .error .returnsFalse
 | some _ =>
  let ast ← ast.nodeExpand fuel
  ast.inheritExpand fuel

end Ast

end DriversFramework.HcAst
