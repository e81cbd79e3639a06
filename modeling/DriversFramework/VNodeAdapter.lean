import DriversFramework.HdfBase
import DriversFramework.RunRules

/-! The clients of an `HdfVNodeAdapter` and the event queue each of them owns.
Locks, the poll wait queue and the io service call are left out: every
operation below runs under the mutexes that the source takes, and a service
call touches no event queue. -/
namespace DriversFramework.VNodeAdapter

def eventQueueMax : ℕ := 100

def maxRwSize : ℕ := 1024 * 1204

inductive HdfVNodeClientStatus where
 | running
 | listening
 | stopped
 | exited
 deriving DecidableEq

structure HdfDevEvent where
 id : ℕ
 data : List UInt8
 deriving DecidableEq

structure HdfVNodeAdapterClient where
 clientId : ℕ
 eventQueue : List HdfDevEvent
 eventQueueSize : ℤ
 wakeup : ℤ
 status : HdfVNodeClientStatus
 deriving DecidableEq

/-- `nextClient` is an address no client has had yet. -/
structure HdfVNodeAdapter where
 clientList : List HdfVNodeAdapterClient
 nextClient : ℕ
 deriving DecidableEq

structure HdfWriteReadBuf where
 readSize : ℕ
 readConsumed : ℕ
 cmdCode : ℕ
 readBuffer : List UInt8
 deriving DecidableEq

structure ReadRequest where
 bwrUser : Option HdfWriteReadBuf
 copyFromUser : Bool
 copyData : Bool
 copyToUser : Bool

inductive EventAlloc where
 | ok
 | noEvent
 | noSbufCopy
 deriving DecidableEq

def newVNodeAdapterClient (a : HdfVNodeAdapter) : HdfVNodeAdapterClient :=
 ⟨a.nextClient, [], 0, 0, .running⟩

/-- `allocOk` covers the client memory and its mutex, `openOk` the service's `Open`;
a client whose service refuses to open is destroyed again. -/
def hdfVNodeAdapterOpen (a : HdfVNodeAdapter) (allocOk openOk : Bool) : HdfVNodeAdapter :=
 if allocOk && openOk then
  ⟨a.clientList ++ [newVNodeAdapterClient a], a.nextClient + 1⟩
 else { a with nextClient := a.nextClient + 1 }

def hdfVNodeAdapterClose (a : HdfVNodeAdapter) (c : ℕ) : HdfVNodeAdapter :=
 { a with clientList := a.clientList.filter fun k => k.clientId ≠ c }

def hdfVNodeAdapterReadDevEvent (c : HdfVNodeAdapterClient) (req : ReadRequest) :
  HdfStatus × Option HdfWriteReadBuf × HdfVNodeAdapterClient :=
 match req.bwrUser with
 | none => (.errInvalidParam, none, c)
 | some bwr =>
  if !req.copyFromUser then (.failure, some bwr, c)
  else if bwr.readSize > maxRwSize then (.errInvalidParam, some bwr, c)
  else match c.eventQueue with
   | [] => (.devErrNodata, some bwr, c)
   | event :: rest =>
    let eventSize := event.data.length
    if eventSize > bwr.readSize then
     -- the required size is reported and the event stays queued
     if req.copyToUser then
      (.devErrNorange, some { bwr with readSize := eventSize }, c)
     else (.errIo, some bwr, c)
    else if eventSize ≠ 0 && !req.copyData then (.errIo, some bwr, c)
    else if !req.copyToUser then (.errIo, some bwr, c)
    else
     (.success,
      some { bwr with
       readConsumed := eventSize, cmdCode := event.id, readBuffer := event.data },
      { c with eventQueue := rest, eventQueueSize := c.eventQueueSize - 1 })

def hdfVnodeAdapterDropOldEventLocked (c : HdfVNodeAdapterClient) :
  Option HdfVNodeAdapterClient :=
 match c.eventQueue with
 | [] => none
 | _ :: rest => some { c with eventQueue := rest, eventQueueSize := c.eventQueueSize - 1 }

def vNodeAdapterSendDevEventToClient (c : HdfVNodeAdapterClient) (id : ℕ) (data : List UInt8)
  (mem : EventAlloc) : Option (HdfStatus × HdfVNodeAdapterClient) :=
 if c.status ≠ .listening then some (.success, c)
 else
  (if c.eventQueueSize ≥ eventQueueMax then hdfVnodeAdapterDropOldEventLocked c
   else some c).bind fun c =>
  match mem with
  | .noEvent | .noSbufCopy => some (.devErrNoMemory, c)
  | .ok => some (.success, { c with
    eventQueue := c.eventQueue ++ [⟨id, data⟩], eventQueueSize := c.eventQueueSize + 1 })

/-- The loop over the client list, which stops at the first failing client. `ret` is
the value to return when no further client is addressed. -/
def sendDevEventLoop (target : Option ℕ) (id : ℕ) (data : List UInt8) (mem : ℕ → EventAlloc) :
  HdfStatus → List HdfVNodeAdapterClient → Option (HdfStatus × List HdfVNodeAdapterClient)
 | ret, [] => some (ret, [])
 | ret, c :: cs =>
  if target.isSome && target ≠ some c.clientId then
   (sendDevEventLoop target id data mem ret cs).map fun r => (r.1, c :: r.2)
  else
   (vNodeAdapterSendDevEventToClient c id data (mem c.clientId)).bind fun r =>
   if r.1 ≠ .success then some (r.1, r.2 :: cs)
   else (sendDevEventLoop target id data mem r.1 cs).map fun r' => (r'.1, r.2 :: r'.2)

def hdfVNodeAdapterSendDevEvent (a : HdfVNodeAdapter) (target : Option ℕ) (id : ℕ)
  (data : List UInt8) (mem : ℕ → EventAlloc) : Option (HdfStatus × HdfVNodeAdapter) :=
 if data.length = 0 then some (.errInvalidParam, a)
 else (sendDevEventLoop target id data mem .failure a.clientList).map fun r =>
  (r.1, { a with clientList := r.2 })

def hdfVNodeAdapterClientStartListening (c : HdfVNodeAdapterClient) : HdfVNodeAdapterClient :=
 { c with status := .listening }

def hdfVnodeCleanEventQueue (c : HdfVNodeAdapterClient) : HdfVNodeAdapterClient :=
 { c with eventQueue := [] }

def hdfVNodeAdapterClientStopListening (c : HdfVNodeAdapterClient) : HdfVNodeAdapterClient :=
 hdfVnodeCleanEventQueue { c with status := .stopped }

def hdfVNodeAdapterClientExitListening (c : HdfVNodeAdapterClient) : HdfVNodeAdapterClient :=
 hdfVnodeCleanEventQueue { c with status := .exited }

def hdfVNodeAdapterClientWakeup (c : HdfVNodeAdapterClient) : HdfVNodeAdapterClient :=
 if c.status ≠ .listening then c else { c with wakeup := c.wakeup + 1 }

inductive PollMask where
 | none
 | pollIn
 | pollHup
 deriving DecidableEq

def hdfVNodeAdapterPoll (c : HdfVNodeAdapterClient) : PollMask × HdfVNodeAdapterClient :=
 if c.status = .exited then (.pollHup, c)
 else if c.eventQueue ≠ [] then (.pollIn, c)
 else if c.wakeup > 0 then (.pollIn, { c with wakeup := c.wakeup - 1 })
 else (.none, c)

/-- The calls that reach an adapter: the file operations of its clients, and the
two ways a device sends an event. -/
inductive Op where
 | openClient (allocOk openOk : Bool)
 | close (client : ℕ)
 | readDevEvent (client : ℕ) (req : ReadRequest)
 | sendEvent (id : ℕ) (data : List UInt8) (mem : ℕ → EventAlloc)
 | sendEventToClient (client : ℕ) (id : ℕ) (data : List UInt8) (mem : ℕ → EventAlloc)
 | startListening (client : ℕ)
 | stopListening (client : ℕ)
 | exitListening (client : ℕ)
 | wakeup (client : ℕ)
 | poll (client : ℕ)

def onClient (a : HdfVNodeAdapter) (c : ℕ) (f : HdfVNodeAdapterClient → HdfVNodeAdapterClient) :
  HdfVNodeAdapter :=
 { a with clientList := a.clientList.map fun k => if k.clientId = c then f k else k }

def step (a : HdfVNodeAdapter) : Op → Option HdfVNodeAdapter
 | .openClient allocOk openOk => some (hdfVNodeAdapterOpen a allocOk openOk)
 | .close c => some (hdfVNodeAdapterClose a c)
 | .readDevEvent c req => some (onClient a c fun k => (hdfVNodeAdapterReadDevEvent k req).2.2)
 | .sendEvent id data mem => (hdfVNodeAdapterSendDevEvent a none id data mem).map Prod.snd
 | .sendEventToClient c id data mem =>
  (hdfVNodeAdapterSendDevEvent a (some c) id data mem).map Prod.snd
 | .startListening c => some (onClient a c hdfVNodeAdapterClientStartListening)
 | .stopListening c => some (onClient a c hdfVNodeAdapterClientStopListening)
 | .exitListening c => some (onClient a c hdfVNodeAdapterClientExitListening)
 | .wakeup c => some (onClient a c hdfVNodeAdapterClientWakeup)
 | .poll c => some (onClient a c fun k => (hdfVNodeAdapterPoll k).2)

def initial : HdfVNodeAdapter := ⟨[], 0⟩

end DriversFramework.VNodeAdapter
