import Mathlib

set_option autoImplicit false

/-! # Errors of the operating system (`src/osal/tun/error.rs`) -/

namespace P2pVpn

/-- `std::io::Error`: with the code the OS gave, or made by a library. -/
inductive IoError where
  | os (code : Nat)
  | other (message : String)
  deriving DecidableEq

/-- The error number, if the OS gave one. -/
def IoError.rawOsError : IoError → Option Nat
  | .os code => some code
  | .other _ => none

/-! The error codes `is_tun_transient` knows, as Linux numbers them. -/

/-- Interrupted by a signal, on Linux. -/
def EINTR : Nat := 4

/-- The device has nothing to give, on Linux. -/
def EAGAIN : Nat := 11

/-- The device refuses what is written, on Linux. -/
def EINVAL : Nat := 22

/-- The frame is too long, on Linux. -/
def EMSGSIZE : Nat := 90

/-- The device has no room, on Linux. -/
def ENOBUFS : Nat := 105

/-- Whether the TUN loop goes on after the error. -/
def isTunTransient (err : IoError) : Bool :=
  match err.rawOsError with
  | some osErr => [EAGAIN, EINTR, EINVAL, EMSGSIZE, ENOBUFS].contains osErr
  | none => false

/-- `write_frame`, by what the device's `send` returned: the number of bytes it took. -/
def writeFrame (buffer : List UInt8) (sent : Except IoError Nat) : Except IoError Unit :=
  match sent with
  | .error e => .error e
  | .ok writtenLen =>
      let len := buffer.length
      if writtenLen ≠ len then .error (.other s!"Buffer length {len} != written {writtenLen}")
      else .ok ()

end P2pVpn
