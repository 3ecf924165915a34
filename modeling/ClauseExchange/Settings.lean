import ClauseExchange.Line
import ClauseExchange.Settings.Bounds

/-!
The settings of a participant. A setting given as text is first read as an assignment, and only an
assignment changes the settings.
-/

namespace ClauseExchange

structure Settings where
  /-- Whether every line is sent at once. -/
  flushEachLine : Bool := false
  /-- Whether a proof is written in binary unless said otherwise. -/
  binary : Bool := true
  host : String := "127.0.0.1"
  port : UInt16 := 6379
  /-- The number of requests that a throttle declines in a row. -/
  throttleLimit : UInt32 := 10000
  /-- Whether the additions of a proof are watched. The default is that of a debug build; a release build
  does not watch them unless told to. -/
  audit : Bool := true
  /-- How long to wait for the store, in milliseconds; zero sets no limit. -/
  timeout : UInt64 := 5000
deriving DecidableEq

inductive Assignment where
  | flushEachLine (value : Bool)
  | binary (value : Bool)
  | host (value : String)
  | port (value : UInt16)
  | throttleLimit (value : UInt32)
  | audit (value : Bool)
  | timeout (value : UInt64)
deriving DecidableEq

namespace Assignment

def flushEachLineBounds : Bounds Bool := ⟨"flushproof", false, true⟩

def binaryBounds : Bounds Bool := ⟨"binary", false, true⟩

def auditBounds : Bounds Bool := ⟨"checks", false, true⟩

def portBounds : Bounds UInt16 := ⟨"port", 1, 65535⟩

def throttleLimitBounds : Bounds UInt32 := ⟨"backoff", 0, 4294967295⟩

def timeoutBounds : Bounds UInt64 := ⟨"timeout", 0, 18446744073709551615⟩

/-- A host is stored without the white space around it, and something has to be left. -/
def readHost (text : String) : Except SettingError String :=
  let host := Text.trim text
  if host = "" then .error (.invalidValue "host" text) else .ok host

def read (name value : String) : Except SettingError Assignment :=
  match Text.trim name with
  | "flushproof" => (flushEachLineBounds.readSwitch value).map .flushEachLine
  | "binary" => (binaryBounds.readSwitch value).map .binary
  | "checks" => (auditBounds.readSwitch value).map .audit
  | "host" => (readHost value).map .host
  | "port" => (portBounds.read value).map .port
  | "backoff" => (throttleLimitBounds.read value).map .throttleLimit
  | "timeout" => (timeoutBounds.read value).map .timeout
  | _ => .error (.unknownOption name)

/-- Reads a name and a value, parted by the first equals sign. -/
def parse (text : String) : Except SettingError Assignment :=
  match text.toList.dropWhile (· != '=') with
  | [] => .error (.invalidValue "" text)
  | _ :: value =>
      read (String.ofList (text.toList.takeWhile (· != '='))) (String.ofList value)

end Assignment

namespace Settings

def assign (settings : Settings) : Assignment → Settings
  | .flushEachLine value => { settings with flushEachLine := value }
  | .binary value => { settings with binary := value }
  | .host value => { settings with host := value }
  | .port value => { settings with port := value }
  | .throttleLimit value => { settings with throttleLimit := value }
  | .audit value => { settings with audit := value }
  | .timeout value => { settings with timeout := value }

def set (settings : Settings) (name value : String) : Except SettingError Settings :=
  (Assignment.read name value).map settings.assign

def apply (settings : Settings) (text : String) : Except SettingError Settings :=
  (Assignment.parse text).map settings.assign

def timeLimit? (settings : Settings) : Option UInt64 :=
  if settings.timeout = 0 then none else some settings.timeout

def encoding (settings : Settings) : Encoding :=
  Encoding.ofBinary settings.binary

end Settings

end ClauseExchange
