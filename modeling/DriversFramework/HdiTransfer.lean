import DriversFramework.HdiIdl

namespace DriversFramework.HdiGen

open ReadBack

def receivedElements (e : IdlType) (received : Val → Option Val) (vs : List Val) : Option Val :=
 if e.occupies then (vs.mapM received).map .array else none

mutual
def IdlType.received : IdlType → Val → Option Val
 | .prim p, .num bits => if p.accepts bits then some (.num bits) else none
 | .struct _ ms, .struct vs => (ms.receivedAll vs).map .struct
 | .union _ _, v => some v.shallow
 | .array e, .array vs =>
  if vs.isEmpty then some (.array []) else receivedElements e (fun v => e.received v) vs
 | _, v => some v
def Members.receivedAll : Members → List Val → Option (List Val)
 | .cons _ t ms, v :: vs => (t.received v).bind fun v => (ms.receivedAll vs).map (v :: ·)
 | _, _ => some []
end

def IdlType.receivedByProxy : IdlType → Val → Option Val
 | .array e, .array vs =>
  if vs.isEmpty then none else receivedElements e (fun v => e.receivedByProxy v) vs
 | t, v => t.received v

mutual
/-- A file descriptor is not negative, a union holds no pointer, and what is allocated has a
positive size. -/
def IdlType.crosses : IdlType → Val → Bool
 | .prim p, .num bits => p.accepts bits
 | .struct _ ms, .struct vs => ms.allCross vs
 | .union _ _, v => !v.holdsPointer
 | .array e, .array vs => vs.isEmpty || e.occupies && vs.all fun v => e.crosses v
 | _, _ => true
def Members.allCross : Members → List Val → Bool
 | .cons _ t ms, v :: vs => t.crosses v && ms.allCross vs
 | _, _ => true
end

/-- As `crosses`, and no array has length 0. -/
def IdlType.crossesBack : IdlType → Val → Bool
 | .array e, .array vs => !vs.isEmpty && (e.occupies && vs.all fun v => e.crossesBack v)
 | t, v => t.crosses v

theorem reads_readNum (kind : SbufKind) (bits : ℕ) :
 Reads (readNum kind) [.num kind bits] (some bits) := by
 intro rest
 change ((Item.num kind bits).asNum kind).map (fun a => (a, rest)) = _
 simp [Item.asNum]

theorem reads_readString (text : String) :
 Reads readString [.string text] (some text) := by
 intro rest
 rfl

theorem reads_readUnpadBuffer (type : String) (content : Val) :
 Reads (readUnpadBuffer type) [.unpadBuffer type content] (some content) := by
 intro rest
 change ((Item.unpadBuffer type content).asUnpadBuffer type).map (fun a => (a, rest)) = _
 simp [Item.asUnpadBuffer]

theorem write_eq {p : PrimitiveType} {bits : ℕ} (h : bits < p.values) :
 p.write bits = .num p.sbuf bits := by
 unfold PrimitiveType.write
 by_cases hp : p = .boolean
 · subst hp
   have hb : bits < 2 := h
   by_cases h0 : bits = 0
   · simp [h0]
   · have h1 : bits = 1 := by omega
     simp [h1]
 · simp [hp]

theorem reads_prim {p : PrimitiveType} {bits : ℕ} (h : bits < p.values) :
 Reads p.read [p.write bits] (if p.accepts bits then some (.num bits) else none) := by
 rw [write_eq h]
 exact (reads_readNum p.sbuf bits).bind_nil fun b _ => reads_ofOption _

variable {e : IdlType} {r : SbufReader Val} {w : Val → List Item} {received : Val → Option Val}
 {vs : List Val}

theorem reads_readElements (hvs : vs ≠ [])
 (h : ∀ v ∈ vs, Reads r (w v) (received v)) :
 Reads (readElements e r vs.length) (vs.flatMap w) (receivedElements e received vs) := by
 have hlen : vs.length ≠ 0 := by simpa using hvs
 have helements : Reads (readAll (List.replicate vs.length r)) (vs.flatMap w)
  (vs.mapM received) := by
  have hall := reads_readAll (r := fun _ : Val => r) h
  rwa [List.map_const'] at hall
 have hmem := reads_ofOption (ι := Item) (if e.occupies && vs.length != 0 then some () else none)
 have hread := hmem.bind fun _ _ =>
  helements.bind_nil fun as _ => reads_pure (ι := Item) (Val.array as)
 unfold receivedElements
 cases ho : e.occupies with
 | false => simpa [readElements, osalMemCalloc, ho] using hread
 | true =>
  simpa [readElements, osalMemCalloc, ho, hlen, Option.map_eq_bind, Function.comp_def] using hread

theorem reads_readArray (h : ∀ v ∈ vs, Reads r (w v) (received v)) :
 Reads (readArray e r) (.num .uint32 vs.length :: vs.flatMap w)
  (if vs.isEmpty then some (.array []) else receivedElements e received vs) := by
 refine (reads_readNum .uint32 vs.length).bind (m := vs.flatMap w)
  (g := fun _ => if vs.isEmpty then some (.array []) else receivedElements e received vs) ?_
 intro len hlen
 cases Option.some.inj hlen
 cases vs with
 | nil => exact reads_pure (Val.array [])
 | cons v vs =>
  have hpos : 0 < (v :: vs).length := Nat.succ_pos _
  rw [if_pos hpos]
  exact reads_readElements (List.cons_ne_nil v vs) h

theorem hasType_of_mem (h : (IdlType.array e).hasType (.array vs))
 {v : Val} (hv : v ∈ vs) : e.hasType v := by
 simp only [IdlType.hasType, Bool.and_eq_true, List.all_eq_true] at h
 exact h.2 v hv

theorem reads_marshalling :
 (∀ t : IdlType, ∀ v, t.hasType v → Reads t.emitCUnMarshalling (t.emitCMarshalling v) (t.received v))
 ∧ ∀ ms : Members, ∀ vs, ms.hasTypes vs →
  Reads ms.blockUnmarshalling (ms.blockMarshalling vs) (ms.receivedAll vs) := by
 refine IdlType.induct ?_ ?_ ?_ ?_ ?_ ?_ ?_ ?_
 · intro p v h
   cases v <;> simp only [IdlType.hasType, Bool.false_eq_true, decide_eq_true_eq] at h
   exact reads_prim h
 · intro name v h
   cases v <;> simp only [IdlType.hasType, Bool.false_eq_true] at h
   exact (reads_readNum .int32 _).map Val.num
 · intro v h
   cases v <;> simp only [IdlType.hasType, Bool.false_eq_true] at h
   exact (reads_readString _).map Val.string
 · intro name ms ih v h
   cases v <;> simp only [IdlType.hasType, Bool.false_eq_true] at h
   exact (ih _ h).map Val.struct
 · intro name ms _ v h
   cases v <;> simp only [IdlType.hasType, Bool.false_eq_true] at h
   exact reads_readUnpadBuffer name _
 · intro e ih v h
   cases v with
   | array vs => exact reads_readArray fun v hv => ih v (hasType_of_mem h hv)
   | _ => simp [IdlType.hasType] at h
 · intro vs _
   cases vs <;> exact reads_pure []
 · intro name t ms iht ihms vs h
   cases vs with
   | nil => simp [Members.hasTypes] at h
   | cons v vs =>
    simp only [Members.hasTypes, Bool.and_eq_true] at h
    refine (iht v h.1).bind fun a _ => ?_
    have hms := (ihms vs h.2).map (a :: ·)
    rwa [map_eq_pure_bind] at hms

theorem reads_stub :
 ∀ t : IdlType, ∀ v, t.hasType v → Reads t.emitCStubReadVar (t.emitCWriteVar v) (t.received v) := by
 refine (IdlType.induct (Q := fun _ => True) ?_ ?_ ?_ ?_ ?_ ?_ trivial fun _ _ _ _ _ => trivial).1
 · intro p v h
   cases v with
   | num bits => exact reads_marshalling.1 (.prim p) (.num bits) h
   | _ => simp [IdlType.hasType] at h
 · intro name v h
   cases v with
   | num bits => exact (reads_readNum .uint32 bits).map Val.num
   | _ => simp [IdlType.hasType] at h
 · intro v h
   cases v with
   | string text => exact reads_marshalling.1 .string (.string text) h
   | _ => simp [IdlType.hasType] at h
 · intro name ms _ v h
   cases v with
   | struct vs => exact reads_marshalling.1 (.struct name ms) (.struct vs) h
   | _ => simp [IdlType.hasType] at h
 · intro name ms _ v h
   cases v with
   | union k v => exact reads_marshalling.1 (.union name ms) (.union k v) h
   | _ => simp [IdlType.hasType] at h
 · intro e ih v h
   cases v with
   | array vs => exact reads_readArray fun v hv => ih v (hasType_of_mem h hv)
   | _ => simp [IdlType.hasType] at h

theorem reads_readProxyArray (h : ∀ v ∈ vs, Reads r (w v) (received v)) :
 Reads (readNum .uint32 >>= readElements e r) (.num .uint32 vs.length :: vs.flatMap w)
  (if vs.isEmpty then none else receivedElements e received vs) := by
 refine (reads_readNum .uint32 vs.length).bind (m := vs.flatMap w)
  (g := fun _ => if vs.isEmpty then none else receivedElements e received vs) ?_
 intro len hlen
 cases Option.some.inj hlen
 cases vs with
 | nil =>
  have hnull : osalMemCalloc e 0 = ofOption none := by
   simp [osalMemCalloc]
  intro rest
  change (osalMemCalloc e 0 >>= fun _ => _).run _ = none
  rw [StateT.run_bind, hnull]
  rfl
 | cons v vs => exact reads_readElements (List.cons_ne_nil v vs) h

theorem reads_proxy : ∀ t : IdlType, ∀ v, t.hasType v →
  Reads t.emitCProxyReadVar (t.emitCWriteVar v) (t.receivedByProxy v) := by
 refine (IdlType.induct (Q := fun _ => True) ?_ ?_ ?_ ?_ ?_ ?_ trivial fun _ _ _ _ _ => trivial).1
 · intro p
   exact reads_stub (.prim p)
 · intro name
   exact reads_stub (.enum name)
 · exact reads_stub .string
 · intro name ms _
   exact reads_stub (.struct name ms)
 · intro name ms _
   exact reads_stub (.union name ms)
 · intro e ih v h
   cases v with
   | array vs => exact reads_readProxyArray fun v hv => ih v (hasType_of_mem h hv)
   | _ => simp [IdlType.hasType] at h

theorem receivedElements_eq_some_iff : receivedElements e received vs = some (.array vs) ↔
  e.occupies ∧ ∀ v ∈ vs, received v = some v := by
 unfold receivedElements
 rw [← mapM_eq_some_self_iff]
 cases e.occupies <;> simp

theorem received_eq_some_iff :
 (∀ t : IdlType, ∀ v, t.hasType v → (t.received v = some v ↔ t.crosses v))
 ∧ ∀ ms : Members, ∀ vs, ms.hasTypes vs → (ms.receivedAll vs = some vs ↔ ms.allCross vs) := by
 refine IdlType.induct ?_ ?_ ?_ ?_ ?_ ?_ ?_ ?_
 · intro p v h
   cases v <;> simp [IdlType.hasType, IdlType.received, IdlType.crosses] at h ⊢
 · intro name v h
   simp [IdlType.received, IdlType.crosses]
 · intro v h
   simp [IdlType.received, IdlType.crosses]
 · intro name ms ih v h
   cases v with
   | struct vs =>
    have hvs := ih vs h
    simp [IdlType.received, IdlType.crosses, hvs]
   | _ => simp [IdlType.hasType] at h
 · intro name ms _ v h
   simp [IdlType.received, IdlType.crosses, Val.shallow_eq_self_iff]
 · intro e ih v h
   cases v with
   | array vs =>
    have hvs : ∀ v ∈ vs, (e.received v = some v ↔ e.crosses v) :=
     fun v hv => ih v (hasType_of_mem h hv)
    cases vs with
    | nil => simp [IdlType.received, IdlType.crosses]
    | cons w vs =>
     have hiff := forall₂_congr hvs
     simp only [IdlType.received, IdlType.crosses, List.isEmpty_cons, Bool.false_eq_true,
      if_false, Bool.false_or, Bool.and_eq_true, List.all_eq_true,
      receivedElements_eq_some_iff, hiff]
   | _ => simp [IdlType.hasType] at h
 · intro vs h
   cases vs with
   | nil => simp [Members.receivedAll, Members.allCross]
   | cons v vs => simp [Members.hasTypes] at h
 · intro name t ms iht ihms vs h
   cases vs with
   | nil => simp [Members.hasTypes] at h
   | cons v vs =>
    simp only [Members.hasTypes, Bool.and_eq_true] at h
    have ht := iht v h.1
    have hms := ihms vs h.2
    simp only [Members.receivedAll, Members.allCross, Bool.and_eq_true, ← ht, ← hms]
    cases t.received v <;> cases ms.receivedAll vs <;> simp

theorem receivedByProxy_eq_some_iff :
 ∀ t : IdlType, ∀ v, t.hasType v → (t.receivedByProxy v = some v ↔ t.crossesBack v) := by
 refine (IdlType.induct (Q := fun _ => True) ?_ ?_ ?_ ?_ ?_ ?_ trivial fun _ _ _ _ _ => trivial).1
 · intro p
   exact received_eq_some_iff.1 (.prim p)
 · intro name
   exact received_eq_some_iff.1 (.enum name)
 · exact received_eq_some_iff.1 .string
 · intro name ms _
   exact received_eq_some_iff.1 (.struct name ms)
 · intro name ms _
   exact received_eq_some_iff.1 (.union name ms)
 · intro e ih v h
   cases v with
   | array vs =>
    have hvs : ∀ v ∈ vs, (e.receivedByProxy v = some v ↔ e.crossesBack v) :=
     fun v hv => ih v (hasType_of_mem h hv)
    cases vs with
    | nil => simp [IdlType.receivedByProxy, IdlType.crossesBack]
    | cons w vs =>
     have hiff := forall₂_congr hvs
     simp only [IdlType.receivedByProxy, IdlType.crossesBack, List.isEmpty_cons,
      Bool.false_eq_true, if_false, Bool.not_false, Bool.true_and, Bool.and_eq_true,
      List.all_eq_true, receivedElements_eq_some_iff, hiff]
   | _ => simp [IdlType.hasType] at h

end DriversFramework.HdiGen
