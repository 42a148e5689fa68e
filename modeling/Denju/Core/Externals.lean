import Denju.Lib.Text

/-!
# Code outside the repository

The crates and tables the program calls and whose source is not part of it:
Unicode normalization and case mapping, SHA-256, YAML, the line diff, and the
tar and zstd formats.  They enter the model as one record of functions, and
every result names what it assumes of them.
-/

namespace Denju

open Lib

/-- A SHA-256 digest. -/
abbrev Digest := Vector UInt8 32

/-- Bytes are compared one after the other, not by their positions. -/
instance instDecidableEqVector {n : Nat} : DecidableEq (Vector UInt8 n) := fun _ _ =>
  decidable_of_iff _ Vector.toList_inj

instance instBEqVector {n : Nat} : BEq (Vector UInt8 n) :=
  instBEqOfDecidableEq

/-!
## YAML values

The value type of the YAML crate.  A mapping keeps its entries in order.
-/

namespace Yaml

inductive Number where
  | posInt : UInt64 -> Number
  | negInt : Int64 -> Number
  | float : UInt64 -> Number
deriving DecidableEq, Repr

inductive Value where
  | null : Value
  | bool : Bool -> Value
  | number : Number -> Value
  | string : Text -> Value
  | sequence : List Value -> Value
  | mapping : List (Value × Value) -> Value
  | tagged : Text -> Value -> Value

abbrev Mapping := List (Value × Value)

namespace Value

/-- The value below any number of tags. -/
def untagRef : Value -> Value
  | .tagged _ value => untagRef value
  | value => value

def asMapping (value : Value) : Option Mapping :=
  match value.untagRef with
  | .mapping entries => some entries
  | _ => none

def asStr (value : Value) : Option Text :=
  match value.untagRef with
  | .string text => some text
  | _ => none

/-- Whether the value is the given string, as a mapping key. -/
def isKey (key : Text) : Value -> Bool
  | .string text => text == key
  | _ => false

/-- Replace the mapping below the tags. -/
def withMapping (entries : Mapping) : Value -> Value
  | .tagged tag value => .tagged tag (withMapping entries value)
  | _ => .mapping entries

end Value

namespace Mapping

def get (entries : Mapping) (key : Text) : Option Value :=
  (entries.find? fun entry => entry.1.isKey key).map Prod.snd

/-- A present key keeps its place; a new one goes last. -/
def insert (entries : Mapping) (key : Text) (value : Value) : Mapping :=
  if entries.any fun entry => entry.1.isKey key then
    entries.map fun entry =>
      if entry.1.isKey key then (entry.1, value) else entry
  else
    entries ++ [(.string key, value)]

end Mapping
end Yaml

/-!
## Line diffs
-/

inductive DiffTag where
  | equal
  | delete
  | insert
  | replace
deriving DecidableEq, Repr

/-- One operation of a diff: half-open ranges of old and new lines. -/
structure DiffOp where
  tag : DiffTag
  oldStart : Nat
  oldEnd : Nat
  newStart : Nat
  newEnd : Nat
deriving DecidableEq, Repr

/-!
## Archives

What an archive stores for one entry, and what reading it back yields.  Every
part of reading an item can fail on its own.
-/

inductive TarEntryType where
  | regular
  | directory
  | symlink
  | other
deriving DecidableEq, Repr

structure TarRecord where
  entryType : TarEntryType
  path : Text
  mode : UInt32
  linkName : Option Text
  data : Bytes
deriving DecidableEq, Repr

structure TarItem where
  entryType : TarEntryType
  path : Except Text Bytes
  mode : Except Text UInt32
  linkName : Except Text (Option Bytes)
  data : Except Text Bytes

/-- The item that reading a stored record yields. -/
def TarRecord.toItem (record : TarRecord) : TarItem where
  entryType := record.entryType
  path := .ok (utf8 record.path)
  mode := .ok record.mode
  linkName := .ok (record.linkName.map utf8)
  data := .ok record.data

/-!
## The record of external functions
-/

structure Externals where
  /-- Unicode normalization form C. -/
  nfc : Text -> Text
  /-- The Unicode lower-case mapping of one character. -/
  toLowercase : Char -> Text
  sha256 : Bytes -> Digest
  yamlFromStr : Text -> Except Text Yaml.Value
  yamlToString : Yaml.Value -> Except Text Text
  /-- The operations of a line diff from the first list to the second. -/
  diffOps : List Text -> List Text -> List DiffOp
  /-- The compressed archive of the stored records. -/
  archiveWrite : List TarRecord -> Except Text Bytes
  /-- The items of a compressed archive, up to the first one that fails. -/
  archiveRead : Bytes -> Except Text (List (Except Text TarItem))

/--
The Unicode tables on ASCII texts, where normalization is the identity and only
letters change case, together with external functions that fail.
-/
def Externals.ascii : Externals where
  nfc text := text
  toLowercase c := [c.toLower]
  sha256 _ := Vector.replicate 32 0
  yamlFromStr _ := .error []
  yamlToString _ := .error []
  diffOps _ _ := []
  archiveWrite _ := .error []
  archiveRead _ := .error []

end Denju
