import Mathlib

set_option autoImplicit false

/-!
# `const/constant.h`

Shared by both machines. A byte is the code's `uint8_t`: arithmetic wraps.
-/
namespace LedServer

abbrev Byte := BitVec 8

def protocolVersion : Byte := 1

def serialIdToIgnore : Byte := 0

def eyeCatch : Byte := 250

def spiReadOverflow : Byte := 245
def spiWriteUnderflow : Byte := 240

def bufferInitPattern : Byte := 230

def msgOverhead : ℕ := 6
def ledArraySize : ℕ := 20

def msgIdEmpty : Byte := 1
def msgIdHandshake : Byte := 2
def msgIdIdle : Byte := 3
def msgIdLedArray : Byte := 4
def msgIdParamSet : Byte := 5
def msgIdPoweroff : Byte := 6
def msgIdQueryName : Byte := 7
def msgIdQueryNumber : Byte := 8
def msgIdReboot : Byte := 9
def msgIdResume : Byte := 10
def msgIdStatus : Byte := 11
def msgIdSuspend : Byte := 12
def msgIdSyncClock : Byte := 13
def msgIdVersion : Byte := 14

def statusSuccess : Byte := 0
def statusFail : Byte := 1
def statusUnknownMsg : Byte := 2

def parameterGoAhead : Byte := 0
def parameterNegative : Byte := 1
def parameterPositive : Byte := 2
def parameterPlaylist : Byte := 3
def parameterTrack : Byte := 4
def parameterVolume : Byte := 5

end LedServer
