import Mathlib.Data.List.Nodup
import DriversFramework.HdiTransfer

/-! What a call of a proxy method does when the stub of the same interface serves it, and when
the C text of the two functions compiles. `reserved` are the words the C language and the
library's headers keep for themselves; the headers' own declarations are taken as given. -/
namespace DriversFramework.HdiGen

open ReadBack

inductive ParamAttr where
 | paramIn
 | paramOut
 deriving DecidableEq

structure Param where
 attr : ParamAttr
 type : IdlType
 name : String

structure Method where
 name : String
 params : List Param

structure Interface where
 name : String
 isCallback : Bool
 methods : List Method

def Method.ins (m : Method) : List Param := m.params.filter fun p => p.attr = .paramIn

def Method.outs (m : Method) : List Param := m.params.filter fun p => p.attr = .paramOut

def readMethodParameter : IdlType → SbufReader Val → SbufReader Val
 | .struct name ms, r => do
  osalMemAlloc (.struct name ms)
  r
 | .union name ms, r => do
  let v ← r
  osalMemAlloc (.union name ms)
  pure v
 | _, r => r

def Param.emitReadStubMethodParameter (p : Param) : SbufReader Val :=
 readMethodParameter p.type p.type.emitCStubReadVar

def Param.emitReadProxyMethodParameter (p : Param) : SbufReader Val :=
 readMethodParameter p.type p.type.emitCProxyReadVar

def writeParameters (ps : List Param) (vs : List Val) : List Item :=
 (ps.zip vs).flatMap fun pv => pv.1.type.emitCWriteVar pv.2

def constantName (name : String) : String :=
 String.ofList <| name.toList.zipIdx.flatMap fun (c, i) =>
  if c.isUpper then if 1 < i then ['_', c] else [c] else [c.toUpper]

def Interface.commands (inf : Interface) : List String :=
 inf.methods.map fun m => "CMD_" ++ constantName m.name

def Interface.command (inf : Interface) (m : Method) : ℕ :=
 inf.commands.idxOf ("CMD_" ++ constantName m.name)

structure Served where
 called : String
 arguments : List Val
 dataLeft : List Item
 reply : List Item

/-- `SerStub<method>`, for a service whose functions return `none` for an error. -/
def Method.serStub (service : String → List Val → Option (List Val)) (m : Method)
  (data : List Item) : Option Served := do
 let (arguments, dataLeft) ← (readAll (m.ins.map Param.emitReadStubMethodParameter)).run data
 let outs ← service m.name arguments
 pure ⟨m.name, arguments, dataLeft, writeParameters m.outs outs⟩

/-- The cases of the `switch` are tried in the order of the methods. -/
def Interface.serviceOnRemoteRequest (inf : Interface)
  (service : String → List Val → Option (List Val)) (code : ℕ) (data : List Item) :
  Option Served := do
 let m ← inf.methods.find? fun m => inf.command m = code
 m.serStub service data

structure Exchange where
 called : String
 arguments : List Val
 dataLeft : List Item
 returned : List Val
 replyLeft : List Item

def Interface.proxyMethod (inf : Interface) (service : String → List Val → Option (List Val))
  (m : Method) (ins : List Val) : Option Exchange := do
 let served ← inf.serviceOnRemoteRequest service (inf.command m) (writeParameters m.ins ins)
 let (returned, replyLeft) ←
  (readAll (m.outs.map Param.emitReadProxyMethodParameter)).run served.reply
 pure ⟨served.called, served.arguments, served.dataLeft, returned, replyLeft⟩

def IdlType.isArray : IdlType → Bool
 | .array _ => true
 | _ => false

def IdlType.isNestedArray : IdlType → Bool
 | .array e => e.isArray
 | _ => false

/-- A variable or field, with the length of an array. -/
def IdlType.names (t : IdlType) (name : String) : List String :=
 if t.isArray then [name, name ++ "Len"] else [name]

def Members.fields : Members → List String
 | .nil => []
 | .cons name t ms => t.names name ++ ms.fields

def Members.anyNestedArray : Members → Bool
 | .nil => false
 | .cons _ t ms => t.isNestedArray || ms.anyNestedArray

mutual
def IdlType.definitionsCompile (reserved : String → Bool) : IdlType → Bool
 | .struct _ ms =>
  ms.fields.Nodup && !ms.fields.any reserved && !ms.anyNestedArray &&
   ms.definitionsCompile reserved
 | .union _ ms => ms.fields.Nodup && !ms.fields.any reserved && ms.definitionsCompile reserved
 | .array e => e.definitionsCompile reserved
 | _ => true
def Members.definitionsCompile (reserved : String → Bool) : Members → Bool
 | .nil => true
 | .cons _ t ms => t.definitionsCompile reserved && ms.definitionsCompile reserved
end

mutual
def IdlType.structs : IdlType → List String
 | .struct name ms => name :: ms.structs
 | .union _ ms => ms.structs
 | .array e => e.structs
 | _ => []
def Members.structs : Members → List String
 | .nil => []
 | .cons _ t ms => t.structs ++ ms.structs
end

def structFunctions (names : List String) : List String :=
 names.flatMap fun n => [n ++ "BlockMarshalling", n ++ "BlockUnmarshalling", n ++ "Free"]

def IdlType.ownStruct : IdlType → List String
 | .struct name _ => [name]
 | .array e => e.ownStruct
 | _ => []

/-- A function body: what its outermost block declares, what its loops declare, the arrays
they index with `i`, and the identifiers of the file that it uses. -/
structure Scope where
 declares : List String
 loops : List String
 indexed : List String
 uses : List String

def Scope.compiles (reserved : String → Bool) (s : Scope) : Bool :=
 s.declares.Nodup && !s.indexed.contains "i" &&
  (s.declares ++ s.loops).all fun n => !s.uses.contains n && !reserved n

def Param.temporary (copy : String) (p : Param) : List String :=
 match p.type with
 | .string => [p.name ++ copy]
 | .union _ _ => [p.name ++ "Cp"]
 | _ => []

def Param.elementTemporary (p : Param) : List String :=
 match p.type with
 | .array .string => [p.name ++ "Cp"]
 | .array (.union _ _) => [p.name ++ "ElementCp"]
 | _ => []

def Method.arrays (m : Method) : List String :=
 (m.params.filter fun p => p.type.isArray).map Param.name

def Method.parameterNames (m : Method) : List String :=
 m.params.flatMap fun p => p.type.names p.name

def Interface.infName (inf : Interface) : String :=
 if inf.name.toList.head? = some 'I' then String.ofList inf.name.toList.tail else inf.name

def Interface.proxyScope (inf : Interface) (m : Method) : Scope where
 declares := "self" :: m.parameterNames ++ ["ec", "data", "reply"] ++
  m.outs.flatMap (Param.temporary "Copy")
 loops := "i" :: m.outs.flatMap Param.elementTemporary
 indexed := m.arrays
 uses := (inf.infName ++ "ProxyCall") :: ("CMD_" ++ constantName m.name) ::
  structFunctions (m.params.flatMap fun p => p.type.ownStruct)

def Interface.stubScope (_inf : Interface) (m : Method) : Scope where
 declares := ["serviceImpl", "data", "reply", "ec"] ++ m.parameterNames ++
  m.ins.flatMap (Param.temporary "Cp")
 loops := "i" :: m.ins.flatMap Param.elementTemporary
 indexed := m.arrays
 uses := structFunctions (m.params.flatMap fun p => p.type.ownStruct)

def Interface.proxyFunctions (inf : Interface) : List String :=
 (inf.infName ++ "ProxyCall") :: (inf.methods.map fun m => inf.infName ++ "Proxy" ++ m.name) ++
  if inf.isCallback then
   [inf.infName ++ "ProxyConstruct", inf.infName ++ "ProxyObtain", inf.infName ++ "ProxyRelease"]
  else
   [inf.infName ++ "Construct", "Hdi" ++ inf.infName ++ "Get", "Hdi" ++ inf.infName ++ "Release"]

def Interface.stubFunctions (inf : Interface) : List String :=
 (inf.infName ++ "ServiceOnRemoteRequest") :: (inf.methods.map fun m => "SerStub" ++ m.name) ++
  if inf.isCallback then
   [inf.infName ++ "StubObtain", inf.infName ++ "StubRelease", inf.infName ++ "ServiceConstruct"]
  else
   ["Hdi" ++ inf.infName ++ "Instance", "Hdi" ++ inf.infName ++ "Release"]

def Param.compiles (reserved : String → Bool) (p : Param) : Bool :=
 p.type.definitionsCompile reserved && !p.type.isNestedArray

def Interface.members (inf : Interface) : List String := "remote" :: inf.methods.map Method.name

def Interface.structs (inf : Interface) : List String :=
 inf.methods.flatMap fun m => m.params.flatMap fun p => p.type.structs

def Interface.compiles (reserved : String → Bool) (inf : Interface) : Bool :=
 inf.commands.Nodup && inf.members.Nodup && !inf.members.any reserved &&
  inf.proxyFunctions.Nodup && inf.stubFunctions.Nodup &&
  (inf.proxyFunctions ++ inf.stubFunctions).all
   (fun f => !(structFunctions inf.structs).contains f) &&
  inf.methods.all fun m =>
   (inf.proxyScope m).compiles reserved && (inf.stubScope m).compiles reserved &&
    m.params.all (Param.compiles reserved)

variable {inf : Interface} {ps : List Param} {vs : List Val}

theorem command_inj (hnodup : inf.commands.Nodup) {m n : Method}
  (hm : m ∈ inf.methods) (hn : n ∈ inf.methods) (h : inf.command m = inf.command n) :
  m = n := by
 have hmem : "CMD_" ++ constantName m.name ∈ inf.commands := List.mem_map_of_mem hm
 have hname := (List.idxOf_inj hmem).mp h
 exact List.inj_on_of_nodup_map hnodup hm hn hname

theorem serviceOnRemoteRequest_command (hnodup : inf.commands.Nodup)
  {m : Method} (hm : m ∈ inf.methods) (service : String → List Val → Option (List Val))
  (data : List Item) :
  inf.serviceOnRemoteRequest service (inf.command m) data = m.serStub service data := by
 have hfind : inf.methods.find? (fun n => inf.command n = inf.command m) = some m := by
  cases hn : inf.methods.find? (fun n => inf.command n = inf.command m) with
  | none =>
   have hnone := List.find?_eq_none.mp hn m hm
   simp at hnone
  | some n =>
   have hcommand : inf.command n = inf.command m := by simpa using List.find?_some hn
   rw [command_inj hnodup (List.mem_of_find?_eq_some hn) hm hcommand]
 rw [Interface.serviceOnRemoteRequest, hfind]
 rfl

def IdlType.allocates : IdlType → Bool
 | .struct _ ms | .union _ ms => ms.occupy
 | _ => true

def Param.crosses (p : Param) (v : Val) : Bool := p.type.allocates && p.type.crosses v

def Param.crossesBack (p : Param) (v : Val) : Bool := p.type.allocates && p.type.crossesBack v

theorem reads_readMethodParameter {t : IdlType} {r : SbufReader Val} {items : List Item}
  {o : Option Val} (h : Reads r items o) :
  Reads (readMethodParameter t r) items (if t.allocates then o else none) := by
 cases t with
 | struct name ms =>
  have halloc := (reads_ofOption (ι := Item) (if ms.occupy then some () else none)).bind
   fun _ _ => h
  cases hocc : ms.occupy <;>
   simpa [readMethodParameter, osalMemAlloc, IdlType.allocates, IdlType.occupies, hocc]
    using halloc
 | union name ms =>
  have halloc := h.bind_nil fun v _ =>
   (reads_ofOption (ι := Item) (if ms.occupy then some () else none)).bind_nil
    fun _ _ => reads_pure v
  cases hocc : ms.occupy <;>
   simpa [readMethodParameter, osalMemAlloc, IdlType.allocates, IdlType.occupies, hocc]
    using halloc
 | _ => simpa [readMethodParameter, IdlType.allocates] using h

def HaveTypes (ps : List Param) (vs : List Val) : Prop :=
 List.Forall₂ (fun p v => p.type.hasType v = true) ps vs

theorem HaveTypes.zip (h : HaveTypes ps vs) :
  (ps.zip vs).map Prod.fst = ps ∧ (ps.zip vs).map Prod.snd = vs ∧
   ∀ pv ∈ ps.zip vs, pv.1.type.hasType pv.2 := by
 induction h with
 | nil => simp
 | cons hv _ ih =>
  obtain ⟨hfst, hsnd, hall⟩ := ih
  simp only [List.zip_cons_cons, List.map_cons, hfst, hsnd, List.mem_cons, forall_eq_or_imp]
  exact ⟨trivial, trivial, hv, hall⟩

theorem readParameters_eq_iff (h : HaveTypes ps vs)
  {r : Param → SbufReader Val} {e : Param → Val → Option Val} {c : Param → Val → Bool}
  (hr : ∀ p v, p.type.hasType v → Reads (r p) (p.type.emitCWriteVar v) (e p v))
  (he : ∀ p v, p.type.hasType v → (e p v = some v ↔ c p v)) :
  (readAll (ps.map r)).run (writeParameters ps vs) =
    ((ps.zip vs).mapM fun pv => e pv.1 pv.2).map (fun as => (as, [])) ∧
   (((ps.zip vs).mapM fun pv => e pv.1 pv.2) = some vs ↔
    ∀ pv ∈ ps.zip vs, c pv.1 pv.2) := by
 obtain ⟨hfst, hsnd, hall⟩ := h.zip
 constructor
 · have hreads := reads_readAll (r := fun pv : Param × Val => r pv.1)
    (w := fun pv => pv.1.type.emitCWriteVar pv.2) (e := fun pv => e pv.1 pv.2)
    (l := ps.zip vs) fun pv hpv => hr pv.1 pv.2 (hall pv hpv)
   have hmap : (ps.zip vs).map (fun pv => r pv.1) = ps.map r := by
    rw [← hfst, List.map_map]
    simp [hfst, Function.comp_def]
   rw [hmap] at hreads
   exact hreads.run
 · have hself : ((ps.zip vs).mapM fun pv => e pv.1 pv.2) = some vs ↔
     ∀ pv ∈ ps.zip vs, e pv.1 pv.2 = some pv.2 := by
    conv_lhs => rhs; rw [← hsnd]
    rw [mapM_eq_some_iff, List.forall₂_map_right_iff, List.forall₂_same]
   rw [hself]
   exact forall₂_congr fun pv hpv => he pv.1 pv.2 (hall pv hpv)

theorem readStubParameters_eq_iff (h : HaveTypes ps vs) :
  (readAll (ps.map Param.emitReadStubMethodParameter)).run (writeParameters ps vs) =
    some (vs, []) ↔ ∀ pv ∈ ps.zip vs, pv.1.crosses pv.2 := by
 obtain ⟨hrun, hself⟩ := readParameters_eq_iff h (r := Param.emitReadStubMethodParameter)
  (e := fun p v => if p.type.allocates then p.type.received v else none)
  (c := Param.crosses)
  (fun p v hv => reads_readMethodParameter (reads_stub p.type v hv)) fun p v hv => by
   have hiff := received_eq_some_iff.1 p.type v hv
   cases ha : p.type.allocates <;> simp [Param.crosses, ha, hiff]
 rw [hrun, ← hself]
 simp

theorem readProxyParameters_eq_iff (h : HaveTypes ps vs) :
  (readAll (ps.map Param.emitReadProxyMethodParameter)).run (writeParameters ps vs) =
    some (vs, []) ↔ ∀ pv ∈ ps.zip vs, pv.1.crossesBack pv.2 := by
 obtain ⟨hrun, hself⟩ := readParameters_eq_iff h (r := Param.emitReadProxyMethodParameter)
  (e := fun p v => if p.type.allocates then p.type.receivedByProxy v else none)
  (c := Param.crossesBack)
  (fun p v hv => reads_readMethodParameter (reads_proxy p.type v hv)) fun p v hv => by
   have hiff := receivedByProxy_eq_some_iff p.type v hv
   cases ha : p.type.allocates <;> simp [Param.crossesBack, ha, hiff]
 rw [hrun, ← hself]
 simp

/-- The two files compile, the call reaches the service's function of the same method with the
same arguments, the proxy returns what that function gave, and nothing is left unread. -/
def Agrees (reserved : String → Bool) (inf : Interface)
  (service : String → List Val → Option (List Val)) (m : Method) (ins outs : List Val) : Prop :=
 inf.compiles reserved ∧ inf.proxyMethod service m ins = some ⟨m.name, ins, [], outs, []⟩

theorem commands_nodup {reserved : String → Bool} {inf : Interface} (h : inf.compiles reserved) :
  inf.commands.Nodup := by
 simp only [Interface.compiles, Bool.and_eq_true, decide_eq_true_eq] at h
 exact h.1.1.1.1.1.1

theorem proxyMethod_eq (hnodup : inf.commands.Nodup) {m : Method}
  (hm : m ∈ inf.methods) {service : String → List Val → Option (List Val)}
  {ins outs : List Val} (hservice : service m.name ins = some outs) :
  inf.proxyMethod service m ins = some ⟨m.name, ins, [], outs, []⟩ ↔
   (readAll (m.ins.map Param.emitReadStubMethodParameter)).run (writeParameters m.ins ins) =
     some (ins, []) ∧
    (readAll (m.outs.map Param.emitReadProxyMethodParameter)).run
     (writeParameters m.outs outs) = some (outs, []) := by
 rw [Interface.proxyMethod, serviceOnRemoteRequest_command hnodup hm, Method.serStub]
 cases hstub : (readAll (m.ins.map Param.emitReadStubMethodParameter)).run
   (writeParameters m.ins ins) with
 | none => simp
 | some read =>
  obtain ⟨arguments, left⟩ := read
  constructor
  · intro h
    simp only [Option.bind_eq_bind, Option.bind_some, Option.bind_eq_some_iff, Option.pure_def,
     Option.some.injEq, Exchange.mk.injEq, Prod.exists] at h
    obtain ⟨served, ⟨given, hgiven, rfl⟩, returned, replyLeft, hreply, -, rfl, rfl, rfl, rfl⟩ := h
    rw [hservice] at hgiven
    cases Option.some.inj hgiven
    exact ⟨rfl, hreply⟩
  · rintro ⟨hread, hreply⟩
    cases Option.some.inj hread
    simp [hservice, hreply]

theorem agrees_iff {reserved : String → Bool} {inf : Interface} {m : Method}
    (hm : m ∈ inf.methods) {service : String → List Val → Option (List Val)}
    {ins outs : List Val} (hservice : service m.name ins = some outs)
    (hins : HaveTypes m.ins ins) (houts : HaveTypes m.outs outs) :
    Agrees reserved inf service m ins outs ↔
      inf.compiles reserved ∧ (∀ pv ∈ m.ins.zip ins, pv.1.crosses pv.2) ∧
        ∀ pv ∈ m.outs.zip outs, pv.1.crossesBack pv.2 := by
  rw [← readStubParameters_eq_iff hins, ← readProxyParameters_eq_iff houts]
  constructor
  · rintro ⟨hcompiles, hcall⟩
    exact ⟨hcompiles, (proxyMethod_eq (commands_nodup hcompiles) hm hservice).mp hcall⟩
  · rintro ⟨hcompiles, hreads⟩
    exact ⟨hcompiles, (proxyMethod_eq (commands_nodup hcompiles) hm hservice).mpr hreads⟩

def scan : Method where
 name := "Find"
 params := [⟨.paramIn, .string, "key"⟩, ⟨.paramOut, .array (.prim .int), "all"⟩]

def scanInterface : Interface := ⟨"IScan", false, [scan]⟩

/-- The words of C that may be taken for a name in an interface file. -/
def keywords : List String :=
 ["auto", "break", "case", "const", "continue", "default", "do", "else", "extern", "for", "goto",
  "if", "inline", "register", "restrict", "return", "signed", "sizeof", "static", "switch",
  "typedef", "void", "volatile", "while"]

theorem scan_agrees : (scan ∈ scanInterface.methods ∧ HaveTypes scan.ins [.string "a"] ∧
      HaveTypes scan.outs [.array [.num 7]]) ∧
    Agrees keywords.contains scanInterface (fun _ _ => some [.array [.num 7]]) scan
      [.string "a"] [.array [.num 7]] := by
  have hm : scan ∈ scanInterface.methods := List.mem_singleton_self scan
  have hins : HaveTypes scan.ins [.string "a"] := .cons rfl .nil
  have houts : HaveTypes scan.outs [.array [.num 7]] := .cons (by decide) .nil
  refine ⟨⟨hm, hins, houts⟩, (agrees_iff hm rfl hins houts).mpr ⟨by decide, ?_, ?_⟩⟩
  · simp [scan, Method.ins, Param.crosses, IdlType.allocates, IdlType.crosses]
  · decide

/-- The service finds nothing: the array it returns has no elements. -/
theorem scan_nothing_found :
    scanInterface.compiles keywords.contains ∧ scan ∈ scanInterface.methods ∧
      HaveTypes scan.ins [.string "a"] ∧ HaveTypes scan.outs [.array []] ∧
      ¬ Agrees keywords.contains scanInterface (fun _ _ => some [.array []]) scan
        [.string "a"] [.array []] := by
  refine ⟨by decide, List.mem_singleton_self scan, .cons rfl .nil, .cons (by decide) .nil, ?_⟩
  rintro ⟨-, hcall⟩
  have hnone : (scanInterface.proxyMethod (fun _ _ => some [.array []]) scan
      [.string "a"]).isNone := by decide
  rw [hcall] at hnone
  cases hnone

end DriversFramework.HdiGen
