/-
  Which dates of a printed document are read back.

  1. **Containers** — a printed container is read exactly if it nests less than 128 deep
     (`Relaxed.nesting_le_of_ofText` and its converse, `Relaxed.ofText`).

  2. **Members** — a document is converted member by member, so it is passed back if each of its members
     is `Readable`, unless it looks like a wrapper itself (`passedBack_eq_ok_iff`).

  3. **Dates** — within the years from 1970 to 9999 a date is printed as a timestamp, and outside of
     them as a number in a wrapper of its own.  The reader has the first form and not the second
     (`bsonOfJson_date_iff`).  So no date comes back as another one, but those outside come back not at
     all, and no document with such a date does (`passedBack_date_iff`).
-/
import Polyshell.Proofs.Bson.Printed
import Polyshell.Proofs.Json.Depth

namespace Polyshell

/-! ## Members -/

/-- What stands under a key that comes once is found. -/
theorem Members.find?_of_mem {α : Type} {k : String} {v : α} {ms : List (String × α)}
    (h : (ms.map Prod.fst).Nodup) (hm : (k, v) ∈ ms) : Members.find? k ms = some v := by
  induction ms with
  | nil => exact absurd hm List.not_mem_nil
  | cons m ms ih =>
    obtain ⟨l, u⟩ := m
    rw [List.map_cons, List.nodup_cons] at h
    rcases List.mem_cons.mp hm with heq | hmem
    · obtain ⟨rfl, rfl⟩ := Prod.mk.inj heq
      rw [Members.find?_cons, if_pos rfl]
    · have hne : l ≠ k := by
        rintro rfl
        exact h.1 (List.mem_map.mpr ⟨_, hmem, rfl⟩)
      rw [Members.find?_cons, if_neg hne, ih h.2 hmem]

/-! ## Containers -/

/-- Where no key comes twice, what is read of a container nests as deep as it was written, so what is
    read at all does not nest too deep. -/
theorem Mongo.Relaxed.nesting_le_of_ofText {v : Json} {t : List Char}
    (h : Mongo.Relaxed (.value v) t) (hv : Mongo.IsContainer v) (hvalid : v.Valid)
    (hkeys : v.KeysOnce) {ambient : Mongo.Ambient} {a : Mongo.Argument}
    (hread : Mongo.Argument.ofText ambient t = .ok a) : v.nesting ≤ Json.maxDepth := by
  obtain ⟨s, hs, hb⟩ := h.becomes hvalid v.nesting (Nat.le_refl _)
  rw [h.ofText_eq hv ambient, Mongo.Argument.ofLiteral, hb.strictText ambient] at hread
  simp only at hread
  split at hread
  · next u hu =>
    have hsame : v.reread = u := Json.eq_of_readWithin hs.readWithin hu
    rw [← Json.nesting_reread v hkeys, hsame]
    exact Json.nesting_le_of_readWithin hu
  · cases hread

namespace Bson

open Polyshell.Mongo (Argument Ambient bsonOfJson bsonOfMembers dateOfJson Relaxed)

/-! ## Members of a document -/

/-- The value can be converted again when its printed form was read. -/
def Readable (b : Bson) : Prop := ∃ b', bsonOfJson b.relaxed.reread = .ok b'

/-- The members of a document as they are read from its printed form. -/
def printedMembers (d : Document) : List (String × Json) :=
  d.map fun m => (m.1, m.2.relaxed.reread)

theorem rereadMembers_relaxedMembers (d : Document) :
    Json.rereadMembers (relaxedMembers d) = printedMembers d := by
  induction d with
  | nil => rw [relaxedMembers, Json.rereadMembers]; rfl
  | cons m d ih =>
    obtain ⟨k, v⟩ := m
    rw [relaxedMembers, Json.rereadMembers, ih]
    rfl

theorem keys_printedMembers (d : Document) : (printedMembers d).map Prod.fst = d.map Prod.fst := by
  rw [printedMembers, List.map_map]
  rfl

/-- Members are converted one by one. -/
theorem bsonOfMembers_cons_eq_ok_iff {k : String} {v : Json} {ms : List (String × Json)}
    {d : Document} : bsonOfMembers ((k, v) :: ms) = .ok d ↔
      ∃ b d', bsonOfJson v = .ok b ∧ bsonOfMembers ms = .ok d' ∧ d = (k, b) :: d' := by
  rw [bsonOfMembers]
  constructor
  · intro h
    split at h
    · cases h
    · next b hb =>
      cases hrest : bsonOfMembers ms with
      | error e =>
        rw [hrest] at h
        cases h
      | ok d' =>
        rw [hrest] at h
        cases h
        exact ⟨b, d', hb, rfl, rfl⟩
  · rintro ⟨b, d', hb, hrest, rfl⟩
    rw [hb, hrest]
    rfl

/-- All of them are converted if each of them can be. -/
theorem exists_bsonOfMembers_iff {ms : List (String × Json)} :
    (∃ d, bsonOfMembers ms = .ok d) ↔ ∀ m ∈ ms, ∃ b, bsonOfJson m.2 = .ok b := by
  induction ms with
  | nil => exact ⟨fun _ m hm => absurd hm List.not_mem_nil, fun _ => ⟨[], rfl⟩⟩
  | cons m ms ih =>
    rw [List.forall_mem_cons, ← ih]
    constructor
    · rintro ⟨d, hd⟩
      obtain ⟨b, d', hb, hrest, -⟩ := bsonOfMembers_cons_eq_ok_iff.mp hd
      exact ⟨⟨b, hb⟩, d', hrest⟩
    · rintro ⟨⟨b, hb⟩, d', hrest⟩
      exact ⟨_, bsonOfMembers_cons_eq_ok_iff.mpr ⟨b, d', hb, hrest, rfl⟩⟩

theorem keys_of_bsonOfMembers {ms : List (String × Json)} {d : Document}
    (h : bsonOfMembers ms = .ok d) : d.map Prod.fst = ms.map Prod.fst := by
  induction ms generalizing d with
  | nil =>
    cases h
    rfl
  | cons m ms ih =>
    obtain ⟨b, d', -, hrest, rfl⟩ := bsonOfMembers_cons_eq_ok_iff.mp h
    rw [List.map_cons, List.map_cons, ih hrest]

theorem exists_mem_of_bsonOfMembers {ms : List (String × Json)} {d : Document}
    (h : bsonOfMembers ms = .ok d) {k : String} {v : Json} (hm : (k, v) ∈ ms) :
    ∃ b, (k, b) ∈ d ∧ bsonOfJson v = .ok b := by
  induction ms generalizing d with
  | nil => exact absurd hm List.not_mem_nil
  | cons m ms ih =>
    obtain ⟨b, d', hb, hrest, rfl⟩ := bsonOfMembers_cons_eq_ok_iff.mp h
    rcases List.mem_cons.mp hm with rfl | hmem
    · exact ⟨b, List.mem_cons_self, hb⟩
    · obtain ⟨b', hb', hread⟩ := ih hrest hmem
      exact ⟨b', List.mem_cons_of_mem _ hb', hread⟩

/-! ## Documents -/

/-- A document that was printed, read as an argument, and converted again. -/
def passedBack (ambient : Ambient) (operation : String) (d : Document) : Except ParseError Document :=
  match Argument.ofText ambient (text (.doc d)).toList with
  | .error e => .error e
  | .ok a => a.toDocument operation

/-- A document is printed as a container. -/
theorem text_doc (d : Document) :
    (text (.doc d)).toList = Json.prettyText 0 (Bson.doc d).relaxed ∧
      Mongo.IsContainer (Bson.doc d).relaxed := by
  refine ⟨String.toList_ofList, ?_⟩
  rw [relaxed]
  trivial

section Document

variable {d : Document} (hkeys : (Bson.doc d).relaxed.KeysOnce)
  (hvalid : (Bson.doc d).relaxed.Valid) (ambient : Ambient) (operation : String)
include hkeys hvalid

theorem nesting_of_passedBack {d' : Document} (h : passedBack ambient operation d = .ok d') :
    (Bson.doc d).relaxed.nesting < 128 := by
  obtain ⟨htext, hcontainer⟩ := text_doc d
  rw [passedBack, htext] at h
  split at h
  · cases h
  · next a ha =>
    exact Nat.lt_succ_of_le ((Relaxed.pretty 0 _).nesting_le_of_ofText hcontainer hvalid hkeys ha)

/-- Passed back is what is read of its members, if that is a document. -/
theorem passedBack_eq (hdepth : (Bson.doc d).relaxed.nesting < 128) :
    passedBack ambient operation d =
      (Argument.object (printedMembers d)).toDocument operation := by
  obtain ⟨htext, hcontainer⟩ := text_doc d
  have hread := Mongo.ofText_pretty hcontainer hvalid hdepth ambient 0
  have hmembers : (Bson.doc d).relaxed.reread = .obj (printedMembers d) := by
    rw [relaxed, Json.KeysOnce] at hkeys
    rw [relaxed, Json.reread_obj hkeys.1, rereadMembers_relaxedMembers]
  rw [hmembers] at hread
  rw [passedBack, htext, hread]
  rfl

end Document

/-! ## Dates -/

/-- A date is read in the form of a timestamp, and not in that of a wrapped number. -/
theorem bsonOfJson_date_iff {ms : Int} {b : Bson} :
    bsonOfJson (Bson.date ms).relaxed.reread = .ok b ↔
      (0 ≤ ms ∧ ms ≤ Instant.lastTimestamp) ∧ b = .date ms := by
  rw [relaxed]
  by_cases hrange : 0 ≤ ms ∧ ms ≤ Instant.lastTimestamp
  · rw [dateRelaxed_eq hrange.1 hrange.2, Json.reread_of_exact _ (exact_wrapText _ _), wrapText, wrap,
      bsonOfJson, dateOfJson_timestamp hrange.1 hrange.2, Except.ok.injEq, eq_comm,
      and_iff_right hrange]
  · have hmillis : dateRelaxed ms = millisJson ms := by
      rw [dateRelaxed, if_neg (by simpa using hrange)]
    have hexact : (millisJson ms).Exact := by
      rw [millisJson, wrap, Json.Exact]
      refine ⟨List.nodup_singleton _, ?_⟩
      rw [Json.ExactMembers, Json.ExactMembers]
      exact ⟨exact_wrapText _ _, trivial⟩
    rw [hmillis, Json.reread_of_exact _ hexact, millisJson, wrap, bsonOfJson]
    refine iff_of_false ?_ fun h => hrange h.1
    intro h
    cases h

/-- In either form it is an object. -/
theorem reread_date (ms : Int) : ∃ members, (Bson.date ms).relaxed.reread = .obj members := by
  rw [relaxed, dateRelaxed]
  split
  · exact ⟨_, by rw [wrapText, wrap, Json.reread]⟩
  · exact ⟨_, by rw [millisJson, wrap, Json.reread]⟩

/-- A document with a date is no wrapper, unless the date stands alone under the key of one. -/
theorem printedMembers_ne {d : Document} {k : String} {ms : Int} (hmem : (k, .date ms) ∈ d)
    (h : d ≠ [("$date", .date ms)]) : (∀ hex, printedMembers d ≠ [("$oid", .str hex)]) ∧
      ∀ v, printedMembers d ≠ [("$date", v)] := by
  have hsingle : ∀ l v, printedMembers d = [(l, v)] →
      d = [(l, .date ms)] ∧ v = (Bson.date ms).relaxed.reread := by
    intro l v he
    obtain ⟨m, rfl, hm⟩ := List.map_eq_singleton_iff.mp he
    obtain rfl := List.mem_singleton.mp hmem
    obtain ⟨rfl, rfl⟩ := Prod.mk.inj hm
    exact ⟨rfl, rfl⟩
  constructor
  · intro hex he
    obtain ⟨members, hmembers⟩ := reread_date ms
    have hstr := (hsingle _ _ he).2
    rw [hmembers] at hstr
    cases hstr
  · intro v he
    exact h (hsingle _ _ he).1

/-- Such a wrapper is refused, for what it wraps is neither a text nor a number. -/
theorem toDocument_wrapped_date {ms : Int} {operation : String} {d' : Document} :
    (Argument.object (printedMembers [("$date", .date ms)])).toDocument operation ≠ .ok d' := by
  intro h
  obtain ⟨members, hmembers⟩ := reread_date ms
  rw [toDocument_object, printedMembers, List.map_singleton, hmembers, bsonOfJson] at h
  cases h

/-- A document with a date is passed back member by member. -/
theorem passedBack_eq_ok_iff {d d' : Document} {k : String} {ms : Int}
    (hkeys : (Bson.doc d).relaxed.KeysOnce) (hvalid : (Bson.doc d).relaxed.Valid)
    (hmem : (k, .date ms) ∈ d) (ambient : Ambient) (operation : String) :
    passedBack ambient operation d = .ok d' ↔
      d ≠ [("$date", .date ms)] ∧ (Bson.doc d).relaxed.nesting < 128 ∧
        bsonOfMembers (printedMembers d) = .ok d' := by
  have hread : d ≠ [("$date", .date ms)] → (Bson.doc d).relaxed.nesting < 128 →
      (passedBack ambient operation d = .ok d' ↔ bsonOfMembers (printedMembers d) = .ok d') := by
    intro hwrapped hdepth
    obtain ⟨hoid, hdate⟩ := printedMembers_ne hmem hwrapped
    rw [passedBack_eq hkeys hvalid ambient operation hdepth, toDocument_object,
      bsonOfJson_obj hoid hdate]
    cases bsonOfMembers (printedMembers d) with
    | error e => exact iff_of_false (fun h => by cases h) fun h => by cases h
    | ok d'' =>
      show (Except.ok (Bson.doc d'') : Except ParseError Bson) = .ok (.doc d') ↔ _
      rw [Except.ok.injEq, Except.ok.injEq, Bson.doc.injEq]
  constructor
  · intro h
    have hdepth := nesting_of_passedBack hkeys hvalid ambient operation h
    have hwrapped : d ≠ [("$date", .date ms)] := by
      rintro rfl
      rw [passedBack_eq hkeys hvalid ambient operation hdepth] at h
      exact toDocument_wrapped_date h
    exact ⟨hwrapped, hdepth, (hread hwrapped hdepth).mp h⟩
  · rintro ⟨hwrapped, hdepth, hmembers⟩
    exact (hread hwrapped hdepth).mpr hmembers

/-- **Which printed dates can be read back.**  A document with a date that was printed and passed back has
    the same date, or is refused.  It is refused exactly if the date lies outside of the years from 1970
    to 9999, if it stands alone under the key that marks a wrapper, if the document nests 128 deep, or
    if another member cannot be read back. -/
theorem passedBack_date_iff {d : Document} {k : String} {ms : Int}
    (hkeys : (Bson.doc d).relaxed.KeysOnce) (hvalid : (Bson.doc d).relaxed.Valid)
    (hmem : (k, .date ms) ∈ d) (ambient : Ambient) (operation : String) :
    (∀ d', passedBack ambient operation d = .ok d' → get? k d' = some (.date ms)) ∧
    ((∃ d', passedBack ambient operation d = .ok d') ↔
      (0 ≤ ms ∧ ms ≤ Instant.lastTimestamp) ∧ d ≠ [("$date", .date ms)] ∧
        (Bson.doc d).relaxed.nesting < 128 ∧ ∀ m ∈ d, m.1 ≠ k → Readable m.2) := by
  have hunique : (d.map Prod.fst).Nodup := by
    rw [relaxed, Json.KeysOnce, keys_relaxedMembers] at hkeys
    exact hkeys.1
  have hdate : (k, (Bson.date ms).relaxed.reread) ∈ printedMembers d :=
    List.mem_map.mpr ⟨_, hmem, rfl⟩
  simp only [passedBack_eq_ok_iff hkeys hvalid hmem]
  refine ⟨?_, ?_, ?_⟩
  · rintro d' ⟨-, -, hmembers⟩
    obtain ⟨b, hb, hconverted⟩ := exists_mem_of_bsonOfMembers hmembers hdate
    rw [(bsonOfJson_date_iff.mp hconverted).2] at hb
    apply Members.find?_of_mem ?_ hb
    rw [keys_of_bsonOfMembers hmembers, keys_printedMembers]
    exact hunique
  · rintro ⟨d', hwrapped, hdepth, hmembers⟩
    have heach := exists_bsonOfMembers_iff.mp ⟨d', hmembers⟩
    obtain ⟨b, hb⟩ := heach _ hdate
    exact ⟨(bsonOfJson_date_iff.mp hb).1, hwrapped, hdepth,
      fun m hm _ => heach _ (List.mem_map_of_mem hm)⟩
  · rintro ⟨hrange, hwrapped, hdepth, hothers⟩
    obtain ⟨d', hd'⟩ : ∃ d', bsonOfMembers (printedMembers d) = .ok d' := by
      rw [exists_bsonOfMembers_iff, printedMembers, List.forall_mem_map]
      intro m hm
      by_cases hk : m.1 = k
      · -- the key comes once, so this is the date
        have hsame : some m.2 = some (.date ms) := by
          rw [← Members.find?_of_mem hunique hmem, ← hk]
          exact (Members.find?_of_mem hunique hm).symm
        rw [Option.some.inj hsame]
        exact ⟨_, bsonOfJson_date_iff.mpr ⟨hrange, rfl⟩⟩
      · exact hothers m hm hk
    exact ⟨d', hwrapped, hdepth, hd'⟩

/-- The last millisecond of the year 9999, beside a name. -/
theorem passedBack_date_iff_last :
    ∃ d', passedBack ⟨0, fun _ => default⟩ "insertOne"
        [("at", .date 253402300799999), ("name", .str "x")] = .ok d' ∧
      get? "at" d' = some (.date 253402300799999) := by
  have hdoc : (Bson.doc [("at", .date 253402300799999), ("name", .str "x")]).relaxed =
      .obj [("at", wrapText "$date" (Instant.timestamp 253402300799999)), ("name", .str "x")] := by
    simp only [relaxed, relaxedMembers]
    rw [dateRelaxed_eq (by decide) (by decide)]
  have hkeys : (Bson.doc [("at", .date 253402300799999), ("name", .str "x")]).relaxed.KeysOnce := by
    rw [hdoc]
    simp [wrapText, wrap, Json.KeysOnce, Json.KeysOnceMembers]
  have hvalid : (Bson.doc [("at", .date 253402300799999), ("name", .str "x")]).relaxed.Valid := by
    rw [hdoc]
    simp [wrapText, wrap, Json.Valid, Json.ValidMembers]
  obtain ⟨hsame, hback⟩ := passedBack_date_iff hkeys hvalid List.mem_cons_self
    ⟨0, fun _ => default⟩ "insertOne"
  have hothers : ∀ m ∈ [("at", Bson.date 253402300799999), ("name", .str "x")], m.1 ≠ "at" →
      Readable m.2 := by
    intro m hm hne
    rcases List.mem_cons.mp hm with rfl | hm
    · exact absurd rfl hne
    · rw [List.mem_singleton.mp hm]
      exact ⟨.str "x", rfl⟩
  obtain ⟨d', hd'⟩ := hback.mpr ⟨by decide, by simp, by rw [hdoc]; decide, hothers⟩
  exact ⟨d', hd', hsame d' hd'⟩

/-- The last millisecond of 1969 is printed and not read back. -/
theorem date_before_1970_refused :
    ¬ ∃ d', passedBack ⟨0, fun _ => default⟩ "insertOne" [("at", .date (-1))] = .ok d' := by
  have hdoc : (Bson.doc [("at", .date (-1))]).relaxed = .obj [("at", millisJson (-1))] := by
    simp only [relaxed, relaxedMembers]
    rfl
  have hkeys : (Bson.doc [("at", .date (-1))]).relaxed.KeysOnce := by
    rw [hdoc]
    simp [millisJson, wrapText, wrap, Json.KeysOnce, Json.KeysOnceMembers]
  have hvalid : (Bson.doc [("at", .date (-1))]).relaxed.Valid := by
    rw [hdoc]
    simp [millisJson, wrapText, wrap, Json.Valid, Json.ValidMembers]
  rintro ⟨d', h⟩
  obtain ⟨-, -, hmembers⟩ := (passedBack_eq_ok_iff hkeys hvalid List.mem_cons_self _ _).mp h
  obtain ⟨b, -, hb⟩ := exists_mem_of_bsonOfMembers hmembers List.mem_cons_self
  exact absurd (bsonOfJson_date_iff.mp hb).1.1 (by decide)

end Bson
end Polyshell
