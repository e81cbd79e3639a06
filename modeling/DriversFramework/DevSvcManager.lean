import Mathlib.Data.List.Induction
import DriversFramework.HdfBase
import DriversFramework.HdfUtils

/-! The registry of services, whose records keep the hash key of a name and not the
name. Allocations succeed, no argument is null. -/
namespace DriversFramework.ServiceRegistry

/-- A device object, by its address, with the service it carries. -/
structure HdfDeviceObject where
 address : ℕ
 service : Option ℕ
 deriving DecidableEq

structure DevSvcRecord where
 key : UInt32
 value : HdfDeviceObject
 deriving DecidableEq

structure DevSvcManager where
 services : List DevSvcRecord
 deriving DecidableEq

def devSvcManagerConstruct : DevSvcManager := ⟨[]⟩

def devSvcManagerSearchService (inst : DevSvcManager) (serviceKey : UInt32) :
  Option DevSvcRecord :=
 inst.services.find? fun record => record.key == serviceKey

def devSvcManagerAddService (inst : DevSvcManager) (svcName : List UInt8)
  (service : HdfDeviceObject) : HdfStatus × DevSvcManager :=
 (.success, ⟨⟨hdfStringMakeHashKey svcName 0, service⟩ :: inst.services⟩)

def devSvcManagerRemoveService (inst : DevSvcManager) (svcName : List UInt8) : DevSvcManager :=
 let serviceKey := hdfStringMakeHashKey svcName 0
 match devSvcManagerSearchService inst serviceKey with
 | some _ => ⟨inst.services.eraseP fun record => record.key == serviceKey⟩
 | none => inst

def devSvcManagerGetObject (inst : DevSvcManager) (svcName : List UInt8) :
  Option HdfDeviceObject :=
 (devSvcManagerSearchService inst (hdfStringMakeHashKey svcName 0)).map DevSvcRecord.value

def devSvcManagerGetService (inst : DevSvcManager) (svcName : List UInt8) : Option ℕ :=
 (devSvcManagerGetObject inst svcName).bind HdfDeviceObject.service

/-- The calls that may change the registry. -/
inductive SvcCall where
 | addService (svcName : List UInt8) (service : HdfDeviceObject)
 | removeService (svcName : List UInt8)
 deriving DecidableEq

def DevSvcManager.step (inst : DevSvcManager) : SvcCall → DevSvcManager
 | .addService svcName service => (devSvcManagerAddService inst svcName service).2
 | .removeService svcName => devSvcManagerRemoveService inst svcName

def DevSvcManager.run (inst : DevSvcManager) (calls : List SvcCall) : DevSvcManager :=
 calls.foldl DevSvcManager.step inst

/-- The name a call is about. -/
def SvcCall.svcName : SvcCall → List UInt8
 | .addService svcName _ => svcName
 | .removeService svcName => svcName

/-- Names that the registry takes for one. -/
def SameKey (a b : List UInt8) : Prop :=
 hdfStringMakeHashKey a 0 = hdfStringMakeHashKey b 0

instance (a b : List UInt8) : Decidable (SameKey a b) :=
 inferInstanceAs (Decidable (_ = _))

/-- The objects added under a name, or one with its key, and not removed again;
the latest first. -/
def standing (svcName : List UInt8) (calls : List SvcCall) : List HdfDeviceObject :=
 calls.foldl (fun objects call =>
  if SameKey call.svcName svcName then
   match call with
   | .addService _ service => service :: objects
   | .removeService _ => objects.tail
  else objects) []

section Registry
variable {inst : DevSvcManager} {svcName : List UInt8}

def DevSvcManager.objects (inst : DevSvcManager) (serviceKey : UInt32) : List HdfDeviceObject :=
 (inst.services.filter fun record => record.key == serviceKey).map DevSvcRecord.value

theorem getObject_eq_head : devSvcManagerGetObject inst svcName =
   (inst.objects (hdfStringMakeHashKey svcName 0)).head? := by
 rw [devSvcManagerGetObject, devSvcManagerSearchService, DevSvcManager.objects, List.head?_map,
  List.head?_filter]

theorem filter_eraseP {α : Type} (p : α → Bool) (list : List α) :
  (list.eraseP p).filter p = (list.filter p).tail := by
 induction list with
 | nil => rfl
 | cons a list ih =>
  by_cases here : p a
  · simp [here]
  · simp [here, ih]

theorem filter_eraseP_of_ne {α : Type} (p q : α → Bool) (disjoint : ∀ a, p a = true → q a = false)
  (list : List α) : (list.eraseP p).filter q = list.filter q := by
 induction list with
 | nil => rfl
 | cons a list ih =>
  by_cases here : p a
  · simp [here, disjoint a here]
  · simp [here, List.filter_cons, ih]

theorem removeService_services : (devSvcManagerRemoveService inst svcName).services =
   inst.services.eraseP fun record => record.key == hdfStringMakeHashKey svcName 0 := by
 rw [devSvcManagerRemoveService]
 split
 · rfl
 · rename_i absent
   rw [List.eraseP_of_forall_not]
   intro record hrecord
   have := List.find?_eq_none.mp absent record hrecord
   simpa using this

theorem step_objects (call : SvcCall) (serviceKey : UInt32) :
  (inst.step call).objects serviceKey =
   if hdfStringMakeHashKey call.svcName 0 = serviceKey then
    match call with
    | .addService _ service => service :: inst.objects serviceKey
    | .removeService _ => (inst.objects serviceKey).tail
   else inst.objects serviceKey := by
 cases call with
 | addService svcName service =>
  by_cases same : hdfStringMakeHashKey svcName 0 = serviceKey <;>
   simp [DevSvcManager.step, devSvcManagerAddService, DevSvcManager.objects, SvcCall.svcName,
    same]
 | removeService svcName =>
  rw [DevSvcManager.step, DevSvcManager.objects, removeService_services, SvcCall.svcName]
  split_ifs with same
  · subst same
    rw [filter_eraseP, List.map_tail]
    rfl
  · rw [filter_eraseP_of_ne]
    · rfl
    · intro record hrecord
      rw [beq_iff_eq] at hrecord
      rw [hrecord, beq_eq_false_iff_ne]
      exact same

theorem run_objects (calls : List SvcCall) :
  (devSvcManagerConstruct.run calls).objects (hdfStringMakeHashKey svcName 0) =
   standing svcName calls := by
 induction calls using List.reverseRecOn with
 | nil => rfl
 | append_singleton calls call ih =>
  rw [DevSvcManager.run, List.foldl_append] at *
  rw [standing, List.foldl_append, List.foldl_cons, List.foldl_nil, List.foldl_cons,
   List.foldl_nil, step_objects, ih]
  rfl

/-- A service is found under a name exactly as the calls for names with its key
left it, and a call for a name with another key changes nothing for it. -/
theorem registry_by_key (calls : List SvcCall) (svcName : List UInt8) :
    devSvcManagerGetObject (devSvcManagerConstruct.run calls) svcName =
        (standing svcName calls).head? ∧
      devSvcManagerGetService (devSvcManagerConstruct.run calls) svcName =
        (standing svcName calls).head?.bind HdfDeviceObject.service ∧
      ∀ call : SvcCall, ¬SameKey call.svcName svcName →
        devSvcManagerGetObject ((devSvcManagerConstruct.run calls).step call) svcName =
          devSvcManagerGetObject (devSvcManagerConstruct.run calls) svcName := by
  have found : devSvcManagerGetObject (devSvcManagerConstruct.run calls) svcName =
      (standing svcName calls).head? := by
    rw [getObject_eq_head, run_objects]
  refine ⟨found, by rw [devSvcManagerGetService, found], ?_⟩
  intro call differ
  rw [SameKey] at differ
  rw [getObject_eq_head, getObject_eq_head, step_objects, if_neg differ]

/-- The names pbudfx and larzzd have one key: adding the second hides the
object of the first, and removing the first removes the object of the second. -/
theorem colliding_names : devSvcManagerGetObject
        (devSvcManagerConstruct.run
          [.addService [112, 98, 117, 100, 102, 120] ⟨1, some 1⟩,
            .addService [108, 97, 114, 122, 122, 100] ⟨2, some 2⟩])
        [112, 98, 117, 100, 102, 120] = some ⟨2, some 2⟩ ∧
      devSvcManagerGetObject
        (devSvcManagerConstruct.run
          [.addService [108, 97, 114, 122, 122, 100] ⟨2, some 2⟩,
            .removeService [112, 98, 117, 100, 102, 120]])
        [108, 97, 114, 122, 122, 100] = none := by
  decide

end Registry

end DriversFramework.ServiceRegistry
