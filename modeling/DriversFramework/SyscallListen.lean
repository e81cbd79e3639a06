import DriversFramework.RunRules

/-! The listener threads of the user-space adapter (`hdf_syscall_adapter.c`) and their poll tables.
An adapter is named by its descriptor. What memory, the driver and the threads do is an input of
each call; a call that hangs or corrupts a list has no state after it. -/
namespace DriversFramework.Syscall

open RunRules

def hdfPfdGrowSize : ℕ := 4

def pfdSizeLimit : ℕ := 65536

/-- `enum HdfDevListenerThreadStatus`, as far as a thread that was obtained gets to have it. -/
inductive ListenerStatus where
 | inited
 | exited
 | started
 | running
 deriving DecidableEq

def ListenerStatus.isStarted : ListenerStatus → Bool
 | .inited | .exited => false
 | .started | .running => true

/-- `none` in `pfds` is `SYSCALL_INVALID_FD`. -/
structure HdfDevListenerThread where
 pfds : List (Option ℕ)
 status : ListenerStatus
 deriving DecidableEq

structure HdfSyscallAdapter where
 thread : Option HdfDevListenerThread
 group : Option ℕ
 deriving DecidableEq

structure HdfSyscallAdapterGroup where
 adapterList : List ℕ
 thread : Option HdfDevListenerThread
 deriving DecidableEq

/-- In whose list a listener is. -/
inductive Place where
 | device (fd : ℕ)
 | group (id : ℕ)
 deriving DecidableEq

/-- `listeners` are the listeners in the lists of adapters and groups. -/
structure ListenState where
 adapters : ℕ → HdfSyscallAdapter
 groups : ℕ → HdfSyscallAdapterGroup
 listeners : List (ℕ × Place)

def ListenState.start : ListenState := ⟨fun _ => ⟨none, none⟩, fun _ => ⟨[], none⟩, []⟩

/-- What works in a call: obtaining a thread, growing the table for a descriptor, telling a
driver to start, waking a driver up, and starting the thread. -/
structure ListenEnv where
 obtain_ : Bool
 grow : ℕ → Bool
 startIoctl : ℕ → Bool
 wakeup : Bool
 threadStart : Bool

def isPlaceFor (fd : ℕ) (pfd : Option ℕ) : Bool := pfd = none || pfd = some fd

/-- The first entry that is a hole or has the descriptor, with the table, which may have grown.
A size that does not fit the 16 bits of `pfdSize` leaves nothing of the table in sight. -/
def getValidPfdIndexLocked (pfds : List (Option ℕ)) (fd : ℕ) (grow : Bool) :
  Option (ℕ × List (Option ℕ)) :=
 let index := pfds.findIdx (isPlaceFor fd)
 if index < pfds.length then some (index, pfds)
 else if grow = false then none
 else if pfds.length + hdfPfdGrowSize < pfdSizeLimit then
  some (index, pfds ++ List.replicate hdfPfdGrowSize none)
 else some (index, (pfds ++ List.replicate hdfPfdGrowSize none).take
  ((pfds.length + hdfPfdGrowSize) % pfdSizeLimit))

def hdfAddAdapterToPfds (pfds : List (Option ℕ)) (fd : ℕ) (grow : Bool) : Option (List (Option ℕ)) :=
 (getValidPfdIndexLocked pfds fd grow).map fun found => found.2.set found.1 (some fd)

def hdfListenThreadInitPollFds (grow : ℕ → Bool) : List ℕ → List (Option ℕ) → Bool × List (Option ℕ)
 | [], pfds => (true, pfds)
 | fd :: adapters, pfds =>
  match hdfAddAdapterToPfds pfds fd (grow fd) with
  | none => (false, pfds)
  | some pfds => hdfListenThreadInitPollFds grow adapters pfds

def dropFd (pfds : List (Option ℕ)) (fd : ℕ) : List (Option ℕ) :=
 pfds.set (pfds.findIdx fun pfd => pfd = some fd) none

def hdfDevListenerThreadInit (thread : HdfDevListenerThread) : HdfDevListenerThread :=
 if thread.status = .exited then { thread with status := .inited } else thread

def hdfDevListenerThreadObtain (thread : Option HdfDevListenerThread) (env : ListenEnv) :
  Option HdfDevListenerThread :=
 match thread with
 | some thread => some (hdfDevListenerThreadInit thread)
 | none => if env.obtain_ then some ⟨[], .inited⟩ else none

/-- `adapters` are those of the group of the thread, and its own adapter. -/
def hdfDevListenerThreadStart (thread : HdfDevListenerThread) (adapters : List ℕ) (env : ListenEnv) :
  Bool × HdfDevListenerThread :=
 if thread.status.isStarted then (true, thread)
 else if thread.status ≠ .inited then (false, thread)
 else
  let init := hdfListenThreadInitPollFds env.grow adapters thread.pfds
  let thread := { thread with pfds := init.2 }
  if init.1 = false ∨ thread.pfds = [] then (false, thread)
  else if thread.pfds.any fun pfd => pfd.any fun fd => !env.startIoctl fd then (false, thread)
  else (env.threadStart, { thread with status := .started })

def hdfListenThreadPollAdd (thread : HdfDevListenerThread) (adapterList : List ℕ) (fd : ℕ)
  (env : ListenEnv) : Bool × HdfDevListenerThread × List ℕ :=
 if thread.status.isStarted = false then (true, thread, adapterList ++ [fd])
 else
  match getValidPfdIndexLocked thread.pfds fd (env.grow fd) with
  | none => (false, thread, adapterList)
  | some (index, pfds) =>
   if adapterList ≠ [] ∧ env.wakeup = false ∨ env.startIoctl fd = false then
    (false, { thread with pfds := pfds.set index none }, adapterList)
   else (true, { thread with pfds := pfds.set index (some fd) }, adapterList ++ [fd])

def ListenState.setAdapter (s : ListenState) (fd : ℕ) (adapter : HdfSyscallAdapter) : ListenState :=
 { s with adapters := Function.update s.adapters fd adapter }

def ListenState.setGroup (s : ListenState) (id : ℕ) (group : HdfSyscallAdapterGroup) : ListenState :=
 { s with groups := Function.update s.groups id group }

def ListenState.hasListener (s : ListenState) (place : Place) : Bool :=
 s.listeners.any fun entry => entry.2 = place

def ListenState.isListed (s : ListenState) (listener : ℕ) : Bool :=
 s.listeners.any fun entry => entry.1 = listener

def ListenState.insert (s : ListenState) (listener : ℕ) (place : Place) : ListenState :=
 { s with listeners := s.listeners ++ [(listener, place)] }

def ListenState.remove (s : ListenState) (listener : ℕ) : ListenState :=
 { s with listeners := s.listeners.filter fun entry => entry.1 ≠ listener }

def hdfIoServiceGroupThreadStart (s : ListenState) (id : ℕ) (env : ListenEnv) : Bool × ListenState :=
 let group := s.groups id
 match hdfDevListenerThreadObtain group.thread env with
 | none => (false, s)
 | some thread =>
  let start := hdfDevListenerThreadStart thread group.adapterList env
  (start.1, s.setGroup id { group with thread := some start.2 })

def hdfIoServiceStartListen (s : ListenState) (fd : ℕ) (env : ListenEnv) : Bool × ListenState :=
 let adapter := s.adapters fd
 match hdfDevListenerThreadObtain adapter.thread env with
 | none => (false, s)
 | some thread =>
  let start := hdfDevListenerThreadStart thread [fd] env
  (start.1, s.setAdapter fd { adapter with thread := some start.2 })

def hdfDeviceRegisterEventListener (s : ListenState) (fd listener : ℕ) (env : ListenEnv) :
  Option (Bool × ListenState) :=
 if (listener, .device fd) ∈ s.listeners then some (false, s)
 -- the node is in another list
 else if s.isListed listener then none
 else
  let s := s.insert listener (.device fd)
  match (s.adapters fd).group with
  | some id => some (hdfIoServiceGroupThreadStart s id env)
  | none =>
   let start := hdfIoServiceStartListen s fd env
   some (start.1, if start.1 then start.2 else start.2.remove listener)

def hdfDeviceUnregisterEventListener (s : ListenState) (fd listener : ℕ) : Bool × ListenState :=
 if s.isListed listener = false then (false, s)
 else
  let s := s.remove listener
  (true, if s.hasListener (.device fd) then s
   else s.setAdapter fd { s.adapters fd with thread := none })

def hdfIoServiceGroupRegisterListener (s : ListenState) (id listener : ℕ) (env : ListenEnv) :
  Option (Bool × ListenState) :=
 let group := s.groups id
 match hdfDevListenerThreadObtain group.thread env with
 | none => some (false, s)
 | some thread =>
  let bound := s.setGroup id { group with thread := some thread }
  if (listener, .group id) ∈ s.listeners then some (false, bound)
  -- the node is in another list
  else if s.isListed listener then none
  else
   let listed := bound.insert listener (.group id)
   if group.adapterList ≠ [] ∧ thread.status.isStarted = false then
    let start := hdfDevListenerThreadStart thread group.adapterList env
    let started := listed.setGroup id { group with thread := some start.2 }
    some (start.1, if start.1 then started else started.remove listener)
   else some (true, listed)

def ListenState.noListener (s : ListenState) (id : ℕ) : Bool :=
 !s.hasListener (.group id) && (s.groups id).adapterList.all fun fd => !s.hasListener (.device fd)

def hdfIoServiceGroupUnregisterListener (s : ListenState) (id listener : ℕ) : Bool × ListenState :=
 if s.isListed listener = false then (false, s)
 else
  let s := s.remove listener
  (true, if (s.groups id).thread ≠ none ∧ s.noListener id
   then s.setGroup id { s.groups id with thread := none } else s)

def hdfIoServiceGroupAddService (s : ListenState) (id fd : ℕ) (env : ListenEnv) :
  Option (Bool × ListenState) :=
 if (s.adapters fd).group ≠ none then some (false, s)
 else if (s.adapters fd).thread ≠ none then some (false, s)
 else
  let group := s.groups id
  match hdfDevListenerThreadObtain group.thread env with
  | none => some (false, s)
  | some thread =>
   let add := hdfListenThreadPollAdd thread group.adapterList fd env
   let s := s.setGroup id ⟨add.2.2, some add.2.1⟩
   if add.1 = false then some (false, s)
   else
    let s := s.setAdapter fd { s.adapters fd with group := some id }
    if (s.hasListener (.group id) || s.hasListener (.device fd)) ∧ add.2.1.status.isStarted = false then
     let start := hdfDevListenerThreadStart add.2.1 add.2.2 env
     -- after a failure `HdfListenThreadPollDel` waits for the mutex that is held here
     if start.1 = false then none
     else some (true, s.setGroup id ⟨add.2.2, some start.2⟩)
    else some (true, s)

/-- The adapter leaves the list it is in. -/
def hdfIoServiceGroupRemoveService (s : ListenState) (id fd : ℕ) : ListenState :=
 match (s.groups id).thread, (s.adapters fd).group with
 | some thread, some own =>
  let left := s.setGroup id { s.groups id with
   thread := if (s.groups id).adapterList.length = 1 then none
    else some { thread with pfds := dropFd thread.pfds fd } }
  (left.setGroup own { left.groups own with adapterList := (left.groups own).adapterList.erase fd }).setAdapter
   fd { s.adapters fd with group := none }
 | _, _ => s

def hdfIoServiceGroupRecycle (s : ListenState) (id : ℕ) : ListenState :=
 { s.setGroup id ⟨[], none⟩ with
   adapters := fun fd => if fd ∈ (s.groups id).adapterList
    then { s.adapters fd with group := none } else s.adapters fd }

def ListenState.setStatus (s : ListenState) (place : Place) (status : ListenerStatus) : ListenState :=
 match place with
 | .device fd => s.setAdapter fd { s.adapters fd with
   thread := (s.adapters fd).thread.map fun thread =>
    if thread.status.isStarted then { thread with status := status } else thread }
 | .group id => s.setGroup id { s.groups id with
   thread := (s.groups id).thread.map fun thread =>
    if thread.status.isStarted then { thread with status := status } else thread }

inductive ListenCall where
 | registerDevice (fd listener : ℕ) (env : ListenEnv)
 | unregisterDevice (fd listener : ℕ)
 | registerGroup (id listener : ℕ) (env : ListenEnv)
 | unregisterGroup (id listener : ℕ)
 | addService (id fd : ℕ) (env : ListenEnv)
 | removeService (id fd : ℕ)
 | recycleGroup (id : ℕ)
 | threadRuns (place : Place)
 | threadExits (place : Place)

/-- With whether the call reports success. -/
def ListenState.call (s : ListenState) : ListenCall → Option (Bool × ListenState)
 | .registerDevice fd listener env => hdfDeviceRegisterEventListener s fd listener env
 | .unregisterDevice fd listener => some (hdfDeviceUnregisterEventListener s fd listener)
 | .registerGroup id listener env => hdfIoServiceGroupRegisterListener s id listener env
 | .unregisterGroup id listener => some (hdfIoServiceGroupUnregisterListener s id listener)
 | .addService id fd env => hdfIoServiceGroupAddService s id fd env
 | .removeService id fd => some (true, hdfIoServiceGroupRemoveService s id fd)
 | .recycleGroup id => some (true, hdfIoServiceGroupRecycle s id)
 | .threadRuns place => some (true, s.setStatus place .running)
 | .threadExits place => some (true, s.setStatus place .exited)

end DriversFramework.Syscall
