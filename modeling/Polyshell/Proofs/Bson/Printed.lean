/-
  What the shell prints of a value can be given back to it.

  1. **The values** — `Faithful b`: `b` is built from kinds of values that the relaxed spelling does
     not merge with others.  A whole number is read back in the narrower width, so one of 64 bits
     must not fit in 32; a date must lie between 1970 and 9999; and no document may look like the
     wrapper of an identifier or a date.

  2. **The two conversions** — `relaxed` makes JSON of such a value that comes through printing and
     reading unchanged (`exact_relaxed`), and `bsonOfJson` makes the value of it again
     (`bsonOfJson_relaxed`).  Both are inductions over the value.

  3. **The chain** — printing, rewriting, reading and converting give the value back
     (`ofText_text`).
-/
import Polyshell.Bson.Text
import Polyshell.Proofs.Bson.ObjectId
import Polyshell.Proofs.Calendar
import Polyshell.Proofs.Mongo.Printed

namespace Polyshell.Bson

open Polyshell.Mongo (Argument Ambient bsonOfJson bsonOfItems bsonOfMembers oidOfText dateOfJson
  IsContainer ofText_pretty)

/-! ## Values that are told apart -/

/-- A document that its reader takes for an identifier or a date. -/
def LooksWrapped (members : List (String × Bson)) : Prop :=
  (∃ hex, members = [("$oid", .str hex)]) ∨ ∃ v, members = [("$date", v)]

mutual

/-- No value that is spelled alike. -/
def Faithful : Bson → Prop
  | .null => True
  | .bool _ => True
  | .str _ => True
  | .objectId _ => True
  | .int32 i => Decimal.minInt32 ≤ i ∧ i ≤ Decimal.maxInt32
  | .int64 i =>
    (Decimal.minInt64 ≤ i ∧ i ≤ Decimal.maxInt64) ∧ ¬ (Decimal.minInt32 ≤ i ∧ i ≤ Decimal.maxInt32)
  | .date ms => 0 ≤ ms ∧ ms ≤ Instant.lastTimestamp
  | .arr items => FaithfulItems items
  | .doc members =>
    ((members.map Prod.fst).Nodup ∧ ¬ LooksWrapped members) ∧ FaithfulMembers members
  | _ => False

def FaithfulItems : List Bson → Prop
  | [] => True
  | v :: r => v.Faithful ∧ FaithfulItems r

def FaithfulMembers : List (String × Bson) → Prop
  | [] => True
  | (_, v) :: r => v.Faithful ∧ FaithfulMembers r

end

/-- The values that are printed as JSON. -/
def IsPrintedAsJson : Bson → Prop
  | .doc _ => True
  | .arr _ => True
  | .objectId _ => True
  | .date _ => True
  | _ => False

/-! ## To JSON -/

theorem dateRelaxed_eq {ms : Int} (h0 : 0 ≤ ms) (h1 : ms ≤ Instant.lastTimestamp) :
    dateRelaxed ms = wrapText "$date" (Instant.timestamp ms) := by
  rw [dateRelaxed, if_pos (by simp [h0, h1])]

theorem keys_relaxedMembers (ms : List (String × Bson)) :
    (relaxedMembers ms).map Prod.fst = ms.map Prod.fst := by
  induction ms with
  | nil => rw [relaxedMembers]; rfl
  | cons m r ih =>
    obtain ⟨k, v⟩ := m
    rw [relaxedMembers, List.map_cons, List.map_cons, ih]

/-- A wrapper around a text holds nothing that reading changes. -/
theorem exact_wrapText (key text : String) : (wrapText key text).Exact := by
  rw [wrapText, wrap, Json.Exact]
  refine ⟨List.nodup_singleton _, ?_⟩
  rw [Json.ExactMembers, Json.ExactMembers, Json.Exact]
  exact ⟨trivial, trivial⟩

mutual

theorem exact_relaxed : ∀ b : Bson, b.Faithful → b.relaxed.Exact
  | .null, _ => by rw [relaxed, Json.Exact]; trivial
  | .bool _, _ => by rw [relaxed, Json.Exact]; trivial
  | .str _, _ => by rw [relaxed, Json.Exact]; trivial
  | .objectId _, _ => by rw [relaxed, oidJson]; exact exact_wrapText _ _
  | .int32 i, h => by
    rw [Faithful] at h
    simp only [Decimal.minInt32, Decimal.maxInt32] at h
    rw [relaxed, Json.Exact, Json.Number.Valid, Decimal.minInt64, Decimal.maxWord64]
    omega
  | .int64 i, h => by
    rw [Faithful] at h
    have hrange := h.1
    simp only [Decimal.minInt64, Decimal.maxInt64] at hrange
    rw [relaxed, Json.Exact, Json.Number.Valid, Decimal.minInt64, Decimal.maxWord64]
    omega
  | .date ms, h => by
    rw [Faithful] at h
    rw [relaxed, dateRelaxed_eq h.1 h.2]
    exact exact_wrapText _ _
  | .arr items, h => by
    rw [Faithful] at h
    rw [relaxed, Json.Exact]
    exact exact_relaxedItems items h
  | .doc members, h => by
    rw [Faithful] at h
    rw [relaxed, Json.Exact, keys_relaxedMembers]
    exact ⟨h.1.1, exact_relaxedMembers members h.2⟩

theorem exact_relaxedItems : ∀ items : List Bson, FaithfulItems items →
    Json.ExactItems (relaxedItems items)
  | [], _ => by rw [relaxedItems, Json.ExactItems]; trivial
  | v :: r, h => by
    rw [FaithfulItems] at h
    rw [relaxedItems, Json.ExactItems]
    exact ⟨exact_relaxed v h.1, exact_relaxedItems r h.2⟩

theorem exact_relaxedMembers : ∀ members : List (String × Bson), FaithfulMembers members →
    Json.ExactMembers (relaxedMembers members)
  | [], _ => by rw [relaxedMembers, Json.ExactMembers]; trivial
  | (k, v) :: r, h => by
    rw [FaithfulMembers] at h
    rw [relaxedMembers, Json.ExactMembers]
    exact ⟨exact_relaxed v h.1, exact_relaxedMembers r h.2⟩

end

/-! ## And back -/

/-- Only a text is spelled as a text. -/
theorem eq_str_of_relaxed {b : Bson} {s : String} (hb : b.Faithful) (h : b.relaxed = .str s) :
    b = .str s := by
  cases b with
  | str t => rw [relaxed] at h; cases h; rfl
  | date ms =>
    rw [Faithful] at hb
    rw [relaxed, dateRelaxed_eq hb.1 hb.2] at h
    cases h
  | null | bool | int32 | int64 | objectId | arr | doc => rw [relaxed] at h; cases h
  | _ => simp [Faithful] at hb

/-- A document that does not look wrapped is spelled as an object that is no wrapper. -/
theorem relaxedMembers_ne {ms : List (String × Bson)} (hms : FaithfulMembers ms)
    (h : ¬ LooksWrapped ms) : (∀ hex, relaxedMembers ms ≠ [("$oid", .str hex)]) ∧
      ∀ v, relaxedMembers ms ≠ [("$date", v)] := by
  have hsingle : ∀ k v, relaxedMembers ms = [(k, v)] → ∃ b, ms = [(k, b)] ∧ b.relaxed = v := by
    intro k v he
    cases ms with
    | nil => rw [relaxedMembers] at he; cases he
    | cons m r =>
      obtain ⟨l, b⟩ := m
      rw [relaxedMembers] at he
      obtain ⟨hm, hr⟩ := List.cons.inj he
      obtain ⟨rfl, hv⟩ := Prod.mk.inj hm
      cases r with
      | nil => exact ⟨b, rfl, hv⟩
      | cons m r =>
        obtain ⟨l', b'⟩ := m
        rw [relaxedMembers] at hr
        cases hr
  refine ⟨fun hex he => ?_, fun v he => ?_⟩
  · -- the spelling may merge kinds, but a text under `$oid` was a text before
    obtain ⟨b, rfl, hb⟩ := hsingle _ _ he
    rw [FaithfulMembers] at hms
    exact h (Or.inl ⟨hex, by rw [eq_str_of_relaxed hms.1 hb]⟩)
  · obtain ⟨b, rfl, -⟩ := hsingle _ _ he
    exact h (Or.inr ⟨b, rfl⟩)

theorem bsonOfJson_obj {ms : List (String × Json)} (hoid : ∀ hex, ms ≠ [("$oid", .str hex)])
    (hdate : ∀ v, ms ≠ [("$date", v)]) :
    bsonOfJson (.obj ms) = (bsonOfMembers ms).map .doc := by
  rw [bsonOfJson]
  · exact hoid
  · exact hdate

theorem oidOfText_toHex (id : ObjectId) : oidOfText id.toHex = .ok (.objectId id) := by
  rw [oidOfText, ObjectId.ofHex_toHex]

theorem dateOfJson_timestamp {ms : Int} (h0 : 0 ≤ ms) (h1 : ms ≤ Instant.lastTimestamp) :
    dateOfJson (.str (Instant.timestamp ms)) = .ok (.date ms) := by
  simp only [dateOfJson]
  rw [Instant.read?, Instant.readTimestamp?_timestamp h0 h1]
  rfl

/-- A whole number is read in the narrower width that holds it. -/
theorem ofNumber_int {i : Int} (h : Decimal.minInt64 ≤ i ∧ i ≤ Decimal.maxInt64) :
    ofNumber (.int i) = if Decimal.minInt32 ≤ i ∧ i ≤ Decimal.maxInt32 then .int32 i else .int64 i := by
  rw [ofNumber, Json.Number.toInt64?, if_pos (by simp [h])]
  simp only [ofInt, Bool.and_eq_true, decide_eq_true_eq]

mutual

theorem bsonOfJson_relaxed : ∀ b : Bson, b.Faithful → bsonOfJson b.relaxed = .ok b
  | .null, _ => by rw [relaxed, bsonOfJson]
  | .bool _, _ => by rw [relaxed, bsonOfJson]
  | .str _, _ => by rw [relaxed, bsonOfJson]
  | .objectId id, _ => by
    rw [relaxed, oidJson, wrapText, wrap, bsonOfJson]
    exact oidOfText_toHex id
  | .int32 i, h => by
    rw [Faithful] at h
    have hrange : Decimal.minInt64 ≤ i ∧ i ≤ Decimal.maxInt64 := by
      simp only [Decimal.minInt32, Decimal.maxInt32, Decimal.minInt64, Decimal.maxInt64] at h ⊢
      omega
    rw [relaxed, bsonOfJson, ofNumber_int hrange, if_pos h]
  | .int64 i, h => by
    rw [Faithful] at h
    rw [relaxed, bsonOfJson, ofNumber_int h.1, if_neg h.2]
  | .date ms, h => by
    rw [Faithful] at h
    rw [relaxed, dateRelaxed_eq h.1 h.2, wrapText, wrap, bsonOfJson]
    exact dateOfJson_timestamp h.1 h.2
  | .arr items, h => by
    rw [Faithful] at h
    rw [relaxed, bsonOfJson, bsonOfItems_relaxed items h]
    rfl
  | .doc members, h => by
    rw [Faithful] at h
    obtain ⟨hoid, hdate⟩ := relaxedMembers_ne h.2 h.1.2
    rw [relaxed, bsonOfJson_obj hoid hdate, bsonOfMembers_relaxed members h.2]
    rfl

theorem bsonOfItems_relaxed : ∀ items : List Bson, FaithfulItems items →
    bsonOfItems (relaxedItems items) = .ok items
  | [], _ => by rw [relaxedItems, bsonOfItems]
  | v :: r, h => by
    rw [FaithfulItems] at h
    rw [relaxedItems, bsonOfItems, bsonOfJson_relaxed v h.1, bsonOfItems_relaxed r h.2]
    rfl

theorem bsonOfMembers_relaxed : ∀ members : List (String × Bson), FaithfulMembers members →
    bsonOfMembers (relaxedMembers members) = .ok members
  | [], _ => by rw [relaxedMembers, bsonOfMembers]
  | (k, v) :: r, h => by
    rw [FaithfulMembers] at h
    rw [relaxedMembers, bsonOfMembers, bsonOfJson_relaxed v h.1, bsonOfMembers_relaxed r h.2]
    rfl

end

/-! ## Printed and read again -/

/-- Such a value is spelled as a container, and printed as that. -/
theorem text_of_isPrintedAsJson {b : Bson} (hjson : b.IsPrintedAsJson) (hb : b.Faithful) :
    b.text.toList = Json.prettyText 0 b.relaxed ∧ IsContainer b.relaxed := by
  cases b with
  | doc ms => exact ⟨String.toList_ofList, by rw [relaxed]; trivial⟩
  | arr items => exact ⟨String.toList_ofList, by rw [relaxed]; trivial⟩
  | objectId id => exact ⟨String.toList_ofList, by rw [relaxed]; trivial⟩
  | date ms =>
    rw [Faithful] at hb
    refine ⟨String.toList_ofList, ?_⟩
    rw [relaxed, dateRelaxed_eq hb.1 hb.2]
    trivial
  | _ => exact hjson.elim

/-- A container as an argument is converted as the container. -/
theorem toBson_ofJson {v : Json} (h : IsContainer v) : (Argument.ofJson v).toBson = bsonOfJson v := by
  cases v with
  | arr items => rfl
  | obj members => rfl
  | _ => exact h.elim

/-- An object is a document if it is converted to one, and nothing else is. -/
theorem toDocument_object {ms : List (String × Json)} {operation : String} {d : Document} :
    (Argument.object ms).toDocument operation = .ok d ↔ bsonOfJson (.obj ms) = .ok (.doc d) := by
  have hpresent : (Argument.object ms).isAbsent = false := rfl
  have hconverted : (Argument.object ms).toBson = bsonOfJson (.obj ms) := rfl
  rw [Argument.toDocument, hpresent, if_neg Bool.false_ne_true, hconverted]
  constructor
  · intro h
    split at h
    · cases h
    · next hd =>
      cases h
      exact hd
    · cases h
  · intro h
    rw [h]

/-- **What the shell prints can be passed back**: the printed form of such a value is accepted as an
    argument, and converts to that value. -/
theorem ofText_text {b : Bson} (hjson : b.IsPrintedAsJson) (hb : b.Faithful)
    (hdepth : b.relaxed.nesting < 128) (ambient : Ambient) :
    ∃ a, Argument.ofText ambient b.text.toList = .ok a ∧ a.toBson = .ok b := by
  obtain ⟨htext, hcontainer⟩ := text_of_isPrintedAsJson hjson hb
  have hexact := exact_relaxed b hb
  have hread := ofText_pretty hcontainer (Json.valid_of_exact _ hexact) hdepth ambient 0
  rw [Json.reread_of_exact _ hexact] at hread
  refine ⟨_, by rw [htext]; exact hread, ?_⟩
  rw [toBson_ofJson hcontainer]
  exact bsonOfJson_relaxed b hb

/-- An identifier, a date, a whole number of 64 bits, and a document whose second key keeps it from
    looking wrapped. -/
theorem ofText_text_document :
    ∃ a, Argument.ofText ⟨0, fun _ => ⟨0⟩⟩ (text (.doc [("_id", .objectId ⟨7⟩),
        ("at", .date 1700000000120), ("n", .arr [.int64 2147483648, .int32 (-1), .null]),
        ("d", .doc [("$oid", .str "x"), ("", .bool true)])])).toList = .ok a ∧
      a.toBson = .ok (.doc [("_id", .objectId ⟨7⟩), ("at", .date 1700000000120),
        ("n", .arr [.int64 2147483648, .int32 (-1), .null]),
        ("d", .doc [("$oid", .str "x"), ("", .bool true)])]) := by
  refine ofText_text (b := .doc _) trivial ?_ (by decide) _
  simp [Faithful, FaithfulMembers, FaithfulItems, LooksWrapped, Decimal.minInt32, Decimal.maxInt32,
    Decimal.minInt64, Decimal.maxInt64, Instant.lastTimestamp]

end Polyshell.Bson
