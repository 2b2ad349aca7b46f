/-!
The two families of failure. An `IoError` is what a block request is refused with or fails
with; a `DriverError` is why a port or a device could not be brought up. Each has a fixed
text.
-/

namespace Ahci

/-- Why a block request failed. -/
inductive IoError where
  /-- The requested sector lies beyond the capacity of the device. -/
  | outOfRange
  /-- The device reported a failure of its own. -/
  | deviceError
  /-- The buffer or length cannot be used for the operation. -/
  | invalidBuffer
  | timeout
  /-- Memory shared with the device could not be set up. -/
  | dmaError
  /-- The device cannot take commands now. -/
  | notReady
  /-- There is no removable medium. -/
  | noMedia
  /-- The medium is another one than at the last command. -/
  | mediaChanged
  /-- Medium or device refuses to be written. -/
  | writeProtected
  | unsupported
  /-- The requested data could not be read or written. -/
  | dataError
  /-- The link between host and device failed. -/
  | linkError
  /-- The adapter failed on the system bus. -/
  | hostBusError
deriving DecidableEq, Repr

namespace IoError

/-- Every failure of a block request, in the order of their declaration. -/
def all : List IoError :=
  [outOfRange, deviceError, invalidBuffer, timeout, dmaError, notReady, noMedia, mediaChanged,
    writeProtected, unsupported, dataError, linkError, hostBusError]

def name : IoError → String
  | outOfRange => "OutOfRange"
  | deviceError => "DeviceError"
  | invalidBuffer => "InvalidBuffer"
  | timeout => "Timeout"
  | dmaError => "DmaError"
  | notReady => "NotReady"
  | noMedia => "NoMedia"
  | mediaChanged => "MediaChanged"
  | writeProtected => "WriteProtected"
  | unsupported => "Unsupported"
  | dataError => "DataError"
  | linkError => "LinkError"
  | hostBusError => "HostBusError"

def message : IoError → String
  | outOfRange => "sector out of range"
  | deviceError => "device error"
  | invalidBuffer => "invalid buffer size"
  | timeout => "operation timed out"
  | dmaError => "DMA error"
  | notReady => "device not ready"
  | noMedia => "no media present"
  | mediaChanged => "media changed"
  | writeProtected => "write protected"
  | unsupported => "command not supported"
  | dataError => "uncorrectable data error"
  | linkError => "interface CRC error"
  | hostBusError => "host bus error"

def ofName? (name : String) : Option IoError :=
  all.find? (·.name == name)

theorem mem_all (error : IoError) : error ∈ all := by
  cases error <;> decide

end IoError

/-- Why a port or a device could not be brought up. -/
inductive DriverError where
  /-- There is no device, or it does not respond. -/
  | deviceNotFound
  | initFailed
  | timeout
  | unsupported
  | ioError
  /-- The driver is in no state for the operation. -/
  | invalidState
  /-- Memory to share with the device ran out. -/
  | outOfMemory
deriving DecidableEq, Repr

namespace DriverError

/-- Every failure of a bring-up, in the order of their declaration. -/
def all : List DriverError :=
  [deviceNotFound, initFailed, timeout, unsupported, ioError, invalidState, outOfMemory]

def name : DriverError → String
  | deviceNotFound => "DeviceNotFound"
  | initFailed => "InitFailed"
  | timeout => "Timeout"
  | unsupported => "Unsupported"
  | ioError => "IoError"
  | invalidState => "InvalidState"
  | outOfMemory => "OutOfMemory"

def message : DriverError → String
  | deviceNotFound => "device not found"
  | initFailed => "driver initialization failed"
  | timeout => "hardware operation timed out"
  | unsupported => "operation not supported"
  | ioError => "I/O error"
  | invalidState => "invalid driver state"
  | outOfMemory => "out of DMA memory"

theorem mem_all (error : DriverError) : error ∈ all := by
  cases error <;> decide

end DriverError

end Ahci
