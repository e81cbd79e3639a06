import Mathlib.Data.List.Nodup
import Mathlib.Data.List.NodupEquivFin
import DriversFramework.HdfBase

/-! The match table of `usb_ddk_pnp_loader.c`. An entry keeps, while the interfaces of a device are
gone through, a mask for each list of required values; a list that is not required grows by the
values of the interfaces, and is cut off after the device. -/
namespace DriversFramework.UsbPnpMatch

def infoMaxInterfaces : ℕ := 32
def classVendorSpec : UInt8 := 0xFF

def matchVendor : UInt16 := 0x0001
def matchProduct : UInt16 := 0x0002
def matchDevLow : UInt16 := 0x0004
def matchDevHigh : UInt16 := 0x0008
def matchDevClass : UInt16 := 0x0010
def matchDevSubClass : UInt16 := 0x0020
def matchDevProtocol : UInt16 := 0x0040

structure DeviceInfo where
 vendorId : UInt16
 productId : UInt16
 bcdDeviceLow : UInt16
 bcdDeviceHigh : UInt16
 deviceClass : UInt8
 deviceSubClass : UInt8
 deviceProtocol : UInt8
 deriving DecidableEq

inductive InterfaceField where
 | interfaceClass | interfaceSubClass | interfaceProtocol | interfaceNumber
 deriving DecidableEq

structure InterfaceInfo where
 interfaceClass : UInt8
 interfaceSubClass : UInt8
 interfaceProtocol : UInt8
 interfaceNumber : UInt8
 deriving DecidableEq

namespace InterfaceField

/-- The bit of `matchFlag` by which the values of the field are required. -/
def flag : InterfaceField → UInt16
 | interfaceClass => 0x0080
 | interfaceSubClass => 0x0100
 | interfaceProtocol => 0x0200
 | interfaceNumber => 0x0400

def of : InterfaceField → InterfaceInfo → UInt8
 | interfaceClass, info => info.interfaceClass
 | interfaceSubClass, info => info.interfaceSubClass
 | interfaceProtocol, info => info.interfaceProtocol
 | interfaceNumber, info => info.interfaceNumber

def all : List InterfaceField := [interfaceClass, interfaceSubClass, interfaceProtocol, interfaceNumber]

theorem mem_all (f : InterfaceField) : f ∈ all := by
 cases f <;> decide

end InterfaceField

structure MatchInfoTable where
 deviceInfo : DeviceInfo
 interfaceInfo : List InterfaceInfo
 few : interfaceInfo.length ≤ infoMaxInterfaces

/-- `values` are the arrays up to their lengths. -/
structure MatchIdTable where
 matchFlag : UInt16
 vendorId : UInt16
 productId : UInt16
 bcdDeviceLow : UInt16
 bcdDeviceHigh : UInt16
 deviceClass : UInt8
 deviceSubClass : UInt8
 deviceProtocol : UInt8
 values : InterfaceField → List UInt8
 mask : InterfaceField → BitVec infoMaxInterfaces
 pnpMatchFlag : Bool

namespace MatchIdTable

def has (id : MatchIdTable) (flag : UInt16) : Bool := id.matchFlag &&& flag != 0

end MatchIdTable

def usbDdkPnpLoaderMatchDevice (dev : DeviceInfo) (id : MatchIdTable) : Bool :=
 if id.has matchVendor && id.vendorId != dev.vendorId then false
 else if id.has matchProduct && id.productId != dev.productId then false
 else if id.has matchDevLow && decide (id.bcdDeviceLow > dev.bcdDeviceLow) then false
 else if id.has matchDevHigh && decide (id.bcdDeviceHigh < dev.bcdDeviceHigh) then false
 else if id.has matchDevClass && id.deviceClass != dev.deviceClass then false
 else if id.has matchDevSubClass && id.deviceSubClass != dev.deviceSubClass then false
 else if id.has matchDevProtocol && id.deviceProtocol != dev.deviceProtocol then false
 else true

def usbDdkPnpLoaderMatchHandle (info : InterfaceInfo) (id : MatchIdTable) (flag : Bool) :
  MatchIdTable :=
 if !id.pnpMatchFlag && flag then
  { id with values := fun f => if id.has f.flag then id.values f else id.values f ++ [f.of info] }
 else id

/-- `UsbDdkPnpLoaderMatchFlagFirst` with the rest of `UsbDdkPnpLoaderMatchFlag`. -/
def masksFull (id : MatchIdTable) : Bool :=
 InterfaceField.all.all fun f => !id.has f.flag ||
  (List.range (id.values f).length).all fun i => (id.mask f).getLsbD i

def usbDdkPnpLoaderMatchFlag (info : InterfaceInfo) (id : MatchIdTable) (flag : Bool) :
  Bool × MatchIdTable :=
 (masksFull id, usbDdkPnpLoaderMatchHandle info id flag)

def usbDdkPnpLoaderMatchInterface (info : InterfaceInfo) (id : MatchIdTable) :
  Bool × MatchIdTable :=
 (InterfaceField.all.all fun f => !id.has f.flag || ((id.values f).idxOf? (f.of info)).isSome,
  { id with mask := fun f =>
      if id.has f.flag then
       ((id.values f).idxOf? (f.of info)).elim (id.mask f) fun i =>
        id.mask f ||| BitVec.ofNat infoMaxInterfaces 1 <<< i
      else id.mask f })

/-- A device of the vendor's own class, and an entry that requires interfaces but no vendor. -/
def vendorMissing (dev : DeviceInfo) (id : MatchIdTable) : Bool :=
 dev.deviceClass == classVendorSpec && !id.has matchVendor &&
  InterfaceField.all.any fun f => id.has f.flag

/-- The end of `UsbDdkPnpLoaderMatchOneIdIntf`. -/
def markMatched (full : Bool) (id : MatchIdTable) : Bool × MatchIdTable :=
 if !full then (false, id)
 else if !id.pnpMatchFlag then (true, { id with pnpMatchFlag := true })
 else (false, id)

def usbDdkPnpLoaderMatchOneIdIntf (dev : DeviceInfo) (info : InterfaceInfo) (id : MatchIdTable) :
  Bool × MatchIdTable :=
 if vendorMissing dev id then (false, id)
 else
  let inside := usbDdkPnpLoaderMatchInterface info id
  let full := usbDdkPnpLoaderMatchFlag info inside.2 inside.1
  markMatched full.1 full.2

/-- What `UsbDdkPnpLoaderAddDevice` does with one entry: whether it hands it to
`UsbDdkPnpLoaderrAddPnpDevice`. -/
def tryEntry (dev : DeviceInfo) (info : InterfaceInfo) (id : MatchIdTable) : Bool × MatchIdTable :=
 if !usbDdkPnpLoaderMatchDevice dev id then (false, id)
 else usbDdkPnpLoaderMatchOneIdIntf dev info id

def usbDdkPnpLoaderAddDevice (dev : DeviceInfo) (info : InterfaceInfo) (table : List MatchIdTable) :
  List Bool × List MatchIdTable :=
 let tried := table.map (tryEntry dev info)
 (tried.map Prod.fst, tried.map Prod.snd)

def addInterfaces (dev : DeviceInfo) : List InterfaceInfo → List MatchIdTable →
  List (List Bool) × List MatchIdTable
 | [], table => ([], table)
 | info :: rest, table =>
  let first := usbDdkPnpLoaderAddDevice dev info table
  let later := addInterfaces dev rest first.2
  (first.1 :: later.1, later.2)

def resetEntry (id : MatchIdTable) : MatchIdTable :=
 { id with
  mask := fun _ => 0
  values := fun f => if id.has f.flag then id.values f else []
  pnpMatchFlag := false }

/-- For each interface of the device, which entries were handed over. -/
def usbDdkPnpLoaderDevice (dev : MatchInfoTable) (table : List MatchIdTable) :
  List (List Bool) × List MatchIdTable :=
 let added := addInterfaces dev.deviceInfo dev.interfaceInfo table
 (added.1, added.2.map resetEntry)

end DriversFramework.UsbPnpMatch
