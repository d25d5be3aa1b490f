/-
  Indexes of a collection.

  An index has keys and options.  Options are known by name, and each has a kind that its value must
  be of; options that are not known are left out.  An index without a name gets one from its keys.
  Documents that describe an index list the options by name, the index's own name last.
-/
import Polyshell.Bson.Shown
import Polyshell.Text.Quoted

namespace Polyshell.Mongo

/-! ## Options -/

/-- What the value of an option must be. -/
inductive OptionKind where
  | bool
  | text
  | document
  /-- A number of 32 bits that is not negative. -/
  | word32
  /-- A number of seconds. -/
  | seconds
  | double
deriving DecidableEq, Repr

namespace OptionKind

/-- The kind in messages. -/
def expected : OptionKind → String
  | .bool => "a boolean"
  | .text => "a string"
  | .document => "a map"
  | .word32 => "u32"
  | .seconds => "u64"
  | .double => "f64"

/-- A value that is not what was expected. -/
def found : Bson → String
  | .bool b => "boolean `" ++ toString b ++ "`"
  | .int32 i => "integer `" ++ toString i ++ "`"
  | .int64 i => "integer `" ++ toString i ++ "`"
  | .double x => "floating point `" ++ x.spelled ++ "`"
  | .str s => "string " ++ Text.quote s
  | .arr _ => "sequence"
  | _ => "map"

/-- A value of the wrong kind. -/
def mismatch {α : Type} (k : OptionKind) (v : Bson) : Except String α :=
  .error ("invalid type: " ++ found v ++ ", expected " ++ k.expected)

/-- A whole number up to a bound. -/
def whole (k : OptionKind) (most : Nat) (v : Bson) : Except String Bson :=
  match v.toInt? with
  | none => mismatch k v
  | some i =>
    if 0 ≤ i && i ≤ most then .ok (.ofInt i)
    else .error ("invalid value: integer `" ++ toString i ++ "`, expected " ++ k.expected)

/-- The value of an option as it is sent. -/
def read (k : OptionKind) (v : Bson) : Except String Bson :=
  match k, v with
  | .bool, .bool b => .ok (.bool b)
  | .text, .str s => .ok (.str s)
  | .document, .doc d => .ok (.doc d)
  | .double, .double x => .ok (.double x)
  | .double, .int32 i => .ok (.double (Double.ofInt i))
  | .double, .int64 i => .ok (.double (Double.ofInt i))
  | .word32, v => whole .word32 4294967295 v
  | .seconds, v => whole .seconds Decimal.maxInt64.toNat v
  | k, v => mismatch k v

end OptionKind

/-- The options of an index, by name. -/
def indexOptions : List (String × OptionKind) :=
  [("2dsphereIndexVersion", .word32), ("background", .bool), ("bits", .word32),
    ("bucketSize", .word32), ("collation", .document), ("default_language", .text),
    ("expireAfterSeconds", .seconds), ("hidden", .bool), ("language_override", .text),
    ("max", .double), ("min", .double), ("name", .text), ("partialFilterExpression", .document),
    ("sparse", .bool), ("storageEngine", .document), ("textIndexVersion", .word32),
    ("unique", .bool), ("v", .word32), ("weights", .document), ("wildcardProjection", .document)]

/-! ## Indexes -/

/-- An index. -/
structure Index where
  keys : Document
  /-- All options but the name. -/
  options : Document
  name : Option String
deriving Inhabited

namespace Index

/-- The known options among members, read; null is no value. -/
def readOptions : Document → Except String Document
  | [] => .ok []
  | (k, v) :: r =>
    match Members.find? k indexOptions, v with
    | none, _ => readOptions r
    | some _, .null => readOptions r
    | some kind, v =>
      match kind.read v with
      | .error e => .error e
      | .ok w => (readOptions r).map ((k, w) :: ·)

/-- The index with these options. -/
def ofOptions (keys options : Document) : Index where
  keys := keys
  options := indexOptions.filterMap fun o =>
    if o.1 = "name" then none else (Bson.get? o.1 options).map fun v => (o.1, v)
  name := (Bson.get? "name" options).bind Bson.toStr?

/-- The name that keys give: each with its value. -/
def nameOfKeys (keys : Document) : String :=
  "_".intercalate (keys.map fun m => m.1 ++ "_" ++ m.2.shown)

/-- The index with a name. -/
def named (i : Index) : Index := { i with name := some (i.name.getD (nameOfKeys i.keys)) }

/-- The document that describes an index. -/
def toDocument (i : Index) : Document :=
  ("key", .doc i.keys) :: i.options ++ (i.name.map fun n => ("name", Bson.str n)).toList

/-- The index that a server describes; options that cannot be read are left out all together. -/
def ofDescription? (d : Document) : Option Index :=
  ((Bson.get? "key" d).bind Bson.toDoc?).map fun keys =>
    ofOptions keys ((readOptions d).toOption.getD [])

example : nameOfKeys [("a", .int32 1), ("b.c", .int32 (-1))] = "a_1_b.c_-1" := by decide +kernel

end Index
end Polyshell.Mongo
