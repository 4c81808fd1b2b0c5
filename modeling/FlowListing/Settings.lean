import FlowListing.Container.Word
import FlowListing.Text.Shown

/-!
# Settings

What is not chosen on the command line comes from the environment, and what is not there has a default. An empty header or
encoding in the environment counts; an empty byte order counts as none.
-/

namespace FlowListing

open Container

/-- The variables of the environment that matter. -/
structure Environment where
  header : Option String := none
  encoding : Option String := none
  endianness : Option String := none
  deriving DecidableEq, Repr

/-- The environment, given by the values of its variables. -/
def Environment.ofVariables (value : String → Option String) : Environment where
  header := value "FLOWSCRIPT_HEADER"
  encoding := value "FLOWSCRIPT_ENCODING"
  endianness := value "FLOWSCRIPT_ENDIANNESS"

/-- How containers are read: the encoding of names and strings, and the byte order if it is forced. -/
structure ReaderSettings where
  encoding : String := "shift_jis"
  order : Option ByteOrder := none
  deriving DecidableEq, Repr

/-- How listings are written. -/
structure ListingSettings where
  header : String := "This file was generated by AtlusScriptLib"
  deriving DecidableEq, Repr

/-- The environment names no byte order; the value is without white space around it and in lower case. -/
structure EndiannessFault where
  value : String
  deriving DecidableEq, Repr

/-- The text of the fault. -/
def EndiannessFault.message (fault : EndiannessFault) : String :=
  s!"FLOWSCRIPT_ENDIANNESS must be 'little' or 'big', got {Text.quote fault.value}"

/-- The byte order that the environment forces. White space around it and upper case do not matter. -/
def Environment.order (env : Environment) : Except EndiannessFault (Option ByteOrder) :=
  match env.endianness with
  | none => .ok none
  | some given =>
    let value := Text.toLowerCase (Text.strip given)
    if given = "" then .ok none
    else if value = "little" then .ok (some .little)
    else if value = "big" then .ok (some .big)
    else .error ⟨value⟩

/-- The reader settings of an environment. -/
def ReaderSettings.ofEnvironment (env : Environment) : Except EndiannessFault ReaderSettings :=
  env.order.map fun order => { encoding := env.encoding.getD "shift_jis", order := order }

/-- The listing settings of an environment. -/
def ListingSettings.ofEnvironment (env : Environment) : ListingSettings :=
  match env.header with
  | some header => { header := header }
  | none => {}

/-- The settings with what is chosen put in place of what was there. -/
def ReaderSettings.choose (settings : ReaderSettings) (encoding : Option String) (order : Option ByteOrder) :
    ReaderSettings :=
  { encoding := encoding.getD settings.encoding, order := order <|> settings.order }

/-- The settings with what is chosen put in place of what was there. -/
def ListingSettings.choose (settings : ListingSettings) (header : Option String) : ListingSettings :=
  { header := header.getD settings.header }

end FlowListing
