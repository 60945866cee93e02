import Mathlib.Data.List.Basic

/-!
The numbers the application is compiled with: `coin.h`, `crypto_helper.h`,
`tx.c`, `Makefile.version`, and the command layout and return codes of the APDU
specification.
-/

namespace LedgerSovereign.Constants

def cla : UInt8 := 0x64

def insGetVersion : UInt8 := 0x00
def insGetAddr : UInt8 := 0x01
def insSign : UInt8 := 0x02

def offsetCla : Nat := 0
def offsetIns : Nat := 1
def offsetP1 : Nat := 2
def offsetPayloadType : Nat := offsetP1
def offsetData : UInt32 := 5
def apduMinLength : UInt32 := 5

def p1Init : UInt8 := 0
def p1Add : UInt8 := 1
def p1Last : UInt8 := 2

def ioApduBufferSize : Nat := 260
def ioAsynchReply : UInt32 := 0x10

def apduCodeOk : UInt16 := 0x9000
def apduCodeExecutionError : UInt16 := 0x6400
def apduCodeWrongLength : UInt16 := 0x6700
def apduCodeOutputBufferTooSmall : UInt16 := 0x6983
def apduCodeDataInvalid : UInt16 := 0x6984
def apduCodeCommandNotAllowed : UInt16 := 0x6986
def apduCodeTxNotInitialized : UInt16 := 0x6987
def apduCodeInvalidP1P2 : UInt16 := 0x6B00
def apduCodeInsNotSupported : UInt16 := 0x6D00
def apduCodeClaNotSupported : UInt16 := 0x6E00
def apduCodeSignVerifyError : UInt16 := 0x6F01

def hdPathLenDefault : Nat := 3
def hdPath0Default : UInt32 := 0x80000000 ||| 0x2c
def hdPath1Default : UInt32 := 0x80000000 ||| 0x60f

def skLen25519 : Nat := 64
def scalarLenEd25519 : Nat := 32
def ed25519SignatureSize : Nat := 64
def pkLen25519 : Nat := 32
def addressMaxLength : Nat := 66
def pubkeyShaLen : Nat := 28

/-- Buffer sizes of every device the application is built for; the smaller ones
of `TARGET_NANOS` belong to a device the manifest does not list. -/
def ramBufferSize : Nat := 8192
def flashBufferSize : Nat := 16384

def majorVersion : UInt16 := 0
def minorVersion : UInt16 := 0
def patchVersion : UInt16 := 1

def ascii (s : String) : List UInt8 :=
  s.toList.map fun c => UInt8.ofNat c.toNat

def hrp : List UInt8 := ascii "sov"

end LedgerSovereign.Constants
