import Mathlib.Data.List.Basic
import DriversFramework.HdfBase

/-! The registered regulators with their tree, and the calls that switch them. A
pointer to a regulator is its position in the list of the manager, which only
grows at its end. Locks and allocations succeed; voltages, currents and the
status callback are left out. -/
namespace DriversFramework.Regulator

inductive RegulatorStatus where
 | off
 | on
 deriving DecidableEq

structure RegulatorNode where
 name : String
 parentName : Option String
 alwaysOn : Bool
 status : RegulatorStatus
 deriving DecidableEq

instance : Inhabited RegulatorNode := ⟨"", none, false, .off⟩

structure RegulatorTreeInfo where
 name : String
 parent : Option ℕ
 childHead : List ℕ
 deriving DecidableEq

structure Regulators where
 regulatorHead : List RegulatorNode
 treeMgrHead : List RegulatorTreeInfo
 deriving DecidableEq

/-- The managers after their initialisation. -/
def Regulators.start : Regulators := ⟨[], []⟩

def Regulators.node (s : Regulators) (i : ℕ) : RegulatorNode :=
 s.regulatorHead.getD i default

def Regulators.status (s : Regulators) (i : ℕ) : RegulatorStatus := (s.node i).status

def Regulators.setStatus (s : Regulators) (i : ℕ) (status : RegulatorStatus) : Regulators :=
 { s with regulatorHead := s.regulatorHead.modify i fun node => { node with status } }

/-- The test of `parentName` against null and the empty string. -/
def RegulatorNode.hasParentName (node : RegulatorNode) : Bool :=
 match node.parentName with
 | some name => name != ""
 | none => false

section Tree

def treeFind (tree : List RegulatorTreeInfo) (name : String) : Option RegulatorTreeInfo :=
 tree.find? fun pos => pos.name == name

def regulatorTreeGetParent (tree : List RegulatorTreeInfo) (name : String) : Option ℕ :=
 (treeFind tree name).bind RegulatorTreeInfo.parent

def regulatorTreeGetChild (tree : List RegulatorTreeInfo) (name : String) : Option (List ℕ) :=
 (treeFind tree name).map RegulatorTreeInfo.childHead

/-- The walk that changes the entry of a name; `none` where there is none. -/
def treeUpdate (name : String) (f : RegulatorTreeInfo → RegulatorTreeInfo) :
  List RegulatorTreeInfo → Option (List RegulatorTreeInfo)
 | [] => none
 | pos :: rest =>
  if pos.name == name then some (f pos :: rest) else (treeUpdate name f rest).map (pos :: ·)

def regulatorTreeManagerNodeInit (tree : List RegulatorTreeInfo) (name : String) :
  List RegulatorTreeInfo :=
 if tree.any fun pos => pos.name == name then tree else tree ++ [⟨name, none, []⟩]

def regulatorTreeSetParent (tree : List RegulatorTreeInfo) (name : String) (parent : ℕ) :
  Option (List RegulatorTreeInfo) :=
 treeUpdate name (fun pos => { pos with parent := some parent }) tree

def regulatorTreeSetChild (tree : List RegulatorTreeInfo) (name : String) (child : ℕ) :
  Option (List RegulatorTreeInfo) :=
 treeUpdate name (fun pos => { pos with childHead := pos.childHead ++ [child] }) tree

def regulatorTreeSet (s : Regulators) (name : String) (child parent : ℕ) :
  HdfStatus × Regulators :=
 let named := regulatorTreeManagerNodeInit s.treeMgrHead name
 match regulatorTreeSetParent named name parent with
 | none => (.failure, { s with treeMgrHead := named })
 | some linked =>
  let both := regulatorTreeManagerNodeInit linked (s.node parent).name
  match regulatorTreeSetChild both (s.node parent).name child with
  | none => (.failure, { s with treeMgrHead := both })
  | some tree => (.success, { s with treeMgrHead := tree })

end Tree

def regulatorTreeIsAllChildDisable (s : Regulators) (name : String) : Bool :=
 match regulatorTreeGetChild s.treeMgrHead name with
 | none => true
 | some children => children.all fun child => s.status child == .off

/-- What a call returns and leaves; `none` where it does not return, since it
takes a lock it already holds or reads the length of a null string. -/
abbrev Outcome := Option (HdfStatus × Regulators)

section Switching
variable (hw : ℕ → Bool)

/-- Enabling, with the parent first. `hw` tells which hardware methods succeed
during the call. -/
def regulatorNodeEnable : ℕ → Regulators → ℕ → Outcome
 | 0, _, _ => none
 | fuel + 1, s, i =>
  let open' := fun s : Regulators =>
   if hw i then some (HdfStatus.success, s.setStatus i .on) else some (.failure, s)
  if s.status i = .on then some (.success, s)
  else if (s.node i).hasParentName then
   match regulatorTreeGetParent s.treeMgrHead (s.node i).name with
   | none => some (.failure, s)
   | some parent =>
    match regulatorNodeEnable fuel s parent with
    | none => none
    | some (.success, s) => open' s
    | some (_, s) => some (.failure, s)
  else open' s

def disableParent (disable : Regulators → ℕ → Outcome) (s : Regulators) (i : ℕ) : Outcome :=
 match (s.node i).parentName with
 | none => none
 | some parentName =>
  if parentName ≠ "" then
   match regulatorTreeGetParent s.treeMgrHead (s.node i).name with
   | none => some (.failure, s)
   | some parent =>
    match disable s parent with
    | none => none
    | some (.success, s) => some (.success, s)
    | some (_, s) => some (.failure, s)
  else some (.success, s)

def regulatorNodeDisable : ℕ → Regulators → ℕ → Outcome
 | 0, _, _ => none
 | fuel + 1, s, i =>
  if s.status i = .off ∨ (s.node i).alwaysOn then some (.success, s)
  else if !regulatorTreeIsAllChildDisable s (s.node i).name then some (.failure, s)
  else if !hw i then some (.failure, s)
  else disableParent (regulatorNodeDisable fuel) (s.setStatus i .off) i

def childrenLoop (visit : Regulators → ℕ → Outcome) : List ℕ → Regulators → Outcome
 | [], s => some (.success, s)
 | child :: rest, s =>
  match visit s child with
  | none => none
  | some (.success, s) =>
   childrenLoop visit rest (if s.status child = .on then s.setStatus child .off else s)
  | some (_, s) => some (.failure, s)

def regulatorTreeChildForceDisable : ℕ → Regulators → ℕ → Outcome
 | 0, _, _ => none
 | fuel + 1, s, i =>
  match regulatorTreeGetChild s.treeMgrHead (s.node i).name with
  | none => some (.errInvalidParam, s)
  | some children => childrenLoop (regulatorTreeChildForceDisable fuel) children s

def regulatorNodeForceDisable (fuel : ℕ) (s : Regulators) (i : ℕ) : Outcome :=
 if s.status i = .off then some (.success, s)
 else
  match regulatorTreeChildForceDisable fuel s i with
  | none => none
  | some (.success, s) =>
   if !hw i then some (.failure, s)
   else disableParent (regulatorNodeDisable hw fuel) (s.setStatus i .off) i
  | some (_, s) => some (.failure, s)

def regulatorNodeSetParent (s : Regulators) (i : ℕ) : HdfStatus × Regulators :=
 if (s.node i).hasParentName then
  match s.regulatorHead.findIdx? fun pos => some pos.name == (s.node i).parentName with
  | some pos =>
   match regulatorTreeSet s (s.node i).name i pos with
   | (.success, s) => (.success, s)
   | (_, s) => (.failure, s)
  | none => (.failure, s)
 else (.success, s)

def regulatorNodeInitProcess (fuel : ℕ) (s : Regulators) (i : ℕ) : Outcome :=
 match regulatorNodeSetParent s i with
 | (.success, s) =>
  if (s.node i).alwaysOn then
   (regulatorNodeEnable hw fuel s i).map fun r => (.success, r.2)
  else some (.success, s)
 | (_, s) => some (.failure, s)

def regulatorNodeAdd (s : Regulators) (name : String) (parentName : Option String)
  (alwaysOn : Bool) : Outcome :=
 if s.regulatorHead.any fun pos => pos.name == name then some (.failure, s)
 else
  let added := { s with
   regulatorHead := s.regulatorHead ++ [⟨name, parentName, alwaysOn, .off⟩] }
  match regulatorNodeInitProcess hw (added.regulatorHead.length + 1) added
    s.regulatorHead.length with
  | none => none
  | some (.success, s) => some (.success, s)
  | some (_, s) => some (.failure, s)

end Switching

inductive RegulatorCall where
 | add (name : String) (parentName : Option String) (alwaysOn : Bool)
 | enable (i : ℕ)
 | disable (i : ℕ)
 | forceDisable (i : ℕ)
 deriving DecidableEq

/-- One call; a position that holds no regulator stands for a null pointer. -/
def Regulators.call (s : Regulators) (hw : ℕ → Bool) : RegulatorCall → Outcome
 | .add name parentName alwaysOn => regulatorNodeAdd hw s name parentName alwaysOn
 | .enable i =>
  if i < s.regulatorHead.length then regulatorNodeEnable hw (s.regulatorHead.length + 1) s i
  else some (.errInvalidParam, s)
 | .disable i =>
  if i < s.regulatorHead.length then regulatorNodeDisable hw (s.regulatorHead.length + 1) s i
  else some (.errInvalidParam, s)
 | .forceDisable i =>
  if i < s.regulatorHead.length then
   regulatorNodeForceDisable hw (s.regulatorHead.length + 1) s i
  else some (.errInvalidParam, s)

/-- The call with the hardware it meets, as a step. -/
def Regulators.step (s : Regulators) (call : RegulatorCall × (ℕ → Bool)) : Option Regulators :=
 (s.call call.2 call.1).map Prod.snd

/-- The parent of a regulator in the tree. -/
def Regulators.parentOf (s : Regulators) (i : ℕ) : Option ℕ :=
 regulatorTreeGetParent s.treeMgrHead (s.node i).name

def Regulators.childrenOf (s : Regulators) (i : ℕ) : List ℕ :=
 (regulatorTreeGetChild s.treeMgrHead (s.node i).name).getD []

end DriversFramework.Regulator
