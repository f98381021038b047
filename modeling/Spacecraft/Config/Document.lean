import Spacecraft.Config.Json
import Spacecraft.Config.Mission

/-!
# Configurations as documents

A configuration is written as an object with one member per value.  It is read from an object whose members may come in
any order and may be missing, or from a list of values in their order; values that are not given keep their standard.
Unknown members are skipped, and a member given twice is refused.
-/

namespace Spacecraft

namespace MissionConfig

/-- A text as bytes. -/
def bytesOf (text : String) : Bytes := text.toUTF8.toList

/-- The value of a member name. -/
def Field.ofKey? (key : Bytes) : Option Field := Field.all.find? fun field => bytesOf field.key == key

/-- Read the value of a field into a configuration. -/
def readValue (field : Field) (config : MissionConfig) (text : Bytes) : Json.Read MissionConfig :=
  (Json.whole field.largest text).map fun (n, rest) => (config.set field n, rest)

/-- Read the name of the next member of an object; nothing if the object ends. -/
def readKey (first : Bool) (text : Bytes) : Json.Read (Option Bytes) :=
  let name (text : Bytes) : Json.Read (Option Bytes) :=
    match Json.skipBlanks text with
    | [] => .error .unfinished
    | b :: rest =>
      if b = Json.byte '"' then (Json.string rest).map fun (key, rest) => (some key, rest) else .error .malformed
  match Json.skipBlanks text with
  | [] => .error .unfinished
  | b :: rest =>
    if b = 0x7d then .ok (none, rest)
    else if first then name (b :: rest)
    else if b = Json.byte ',' then name rest
    else .error .malformed

/-- Read the members of an object, of which some were given before; each takes at least one byte. -/
def readMembers : Nat → Bool → List Field → MissionConfig → Bytes → Json.Read MissionConfig
  | 0, _, _, _, _ => .error .unfinished
  | fuel + 1, first, given, config, text =>
    match readKey first text with
    | .error e => .error e
    | .ok (none, rest) => .ok (config, rest)
    | .ok (some key, rest) =>
      match Field.ofKey? key with
      | none =>
        match (Json.colon rest).bind Json.skipValue with
        | .error e => .error e
        | .ok rest => readMembers fuel false given config rest
      | some field =>
        if given.contains field then .error .unsuitable
        else
          match (Json.colon rest).bind (readValue field config) with
          | .error e => .error e
          | .ok (config, rest) => readMembers fuel false (field :: given) config rest

/-- Go to the next element of a list; nothing if the list ends. -/
def nextElement (first : Bool) (text : Bytes) : Except Json.Fault (Option Bytes) :=
  match Json.skipBlanks text with
  | [] => .error .unfinished
  | b :: rest =>
    if b = Json.byte ']' then .ok none
    else if first then .ok (some (b :: rest))
    else if b = Json.byte ',' then
      match Json.skipBlanks rest with
      | [] => .error .unfinished
      | c :: rest => if c = Json.byte ']' then .error .malformed else .ok (some (c :: rest))
    else .error .malformed

/-- Read the elements of a list as the values of fields in order. -/
def readElements : Bool → List Field → MissionConfig → Bytes → Json.Read MissionConfig
  | _, [], config, text =>
    match Json.skipBlanks text with
    | [] => .error .unfinished
    | b :: rest => if b = Json.byte ']' then .ok (config, rest) else .error .malformed
  | first, field :: fields, config, text =>
    match nextElement first text with
    | .error e => .error e
    | .ok none => .ok (config, (Json.skipBlanks text).tail)
    | .ok (some text) =>
      match readValue field config text with
      | .error e => .error e
      | .ok (config, rest) => readElements false fields config rest

/-- Read a configuration from the front of a text. -/
def read (text : Bytes) : Json.Read MissionConfig :=
  match Json.skipBlanks text with
  | [] => .error .unfinished
  | b :: rest =>
    if b = Json.byte '[' then readElements true Field.all standard rest
    else if b = 0x7b then readMembers (rest.length + 1) true [] standard rest
    else .error (Json.otherValue (b :: rest))

/-- Read a configuration from a whole document. -/
def ofDocument (text : Bytes) : Except Json.Fault MissionConfig :=
  match read text with
  | .error e => .error e
  | .ok (config, rest) => if (Json.skipBlanks rest).isEmpty then .ok config else .error .malformed

/-- Read a configuration from a text. -/
def ofText (text : String) : Except Json.Fault MissionConfig := ofDocument (bytesOf text)

/-- One member of an object: its name and its number. -/
def memberText (field : Field) (n : Nat) : String := "\"" ++ field.key ++ "\":" ++ toString n

/-- The configuration as a document. -/
def toText (config : MissionConfig) : String :=
  "\x7b" ++ String.intercalate "," (Field.all.map fun field => memberText field (config.get field)) ++ "\x7d"

end MissionConfig

end Spacecraft
