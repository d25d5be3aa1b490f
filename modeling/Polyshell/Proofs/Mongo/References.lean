/-
  Lists of references, and references that stand alone.

  A reference that stands alone is looked up by a request of its own, and what the server answers is
  put in its place.  A list of references is looked up by one request; which document belongs to
  which reference is then decided on this side, by the `_id` that the documents show.  So a list comes
  to the same as its references one by one exactly when every document that a reference stands for
  shows that very reference as its `_id` (`populate_list_iff`).  A selection of members that leaves
  out `_id` empties every list (`apply_list_unshown`), though each of the references alone would be
  replaced; and a reference that the server finds under a number of another width drops out of its
  list.

  1. **Lists** — two partial maps of which one gives less (`filterMap_eq_filterMap_iff`).

  2. **The server** — `AnswersAlike` is what is asked of it: to the request for a list it answers the
     documents that it would answer to the requests for each, in any order.

  3. **The same in both** — what a reference stands for alone (`alone_of_isReference`), what a list of
     them comes to (`apply_list`), and when the two agree.
-/
import Polyshell.Mongo.Fetch
import Polyshell.Proofs.Session

namespace Polyshell.Mongo

/-! ## Lists -/

section Lists

variable {α β : Type} {f g : α → Option β}

theorem length_filterMap_le {l : List α} (h : ∀ a ∈ l, f a = none ∨ f a = g a) :
    (l.filterMap f).length ≤ (l.filterMap g).length := by
  induction l with
  | nil => exact Nat.le_refl _
  | cons a l ih =>
    obtain ⟨ha, hrest⟩ := List.forall_mem_cons.mp h
    have hle := ih hrest
    rw [List.filterMap_cons, List.filterMap_cons]
    rcases ha with ha | ha
    · rw [ha]
      cases g a with
      | none => exact hle
      | some b => exact Nat.le_succ_of_le hle
    · rw [ha]
      cases g a with
      | none => exact hle
      | some b => exact Nat.succ_le_succ hle

/-- Where one map gives nothing or the same as another, the lists are equal only if the maps are. -/
theorem filterMap_eq_filterMap_iff {l : List α} (h : ∀ a ∈ l, f a = none ∨ f a = g a) :
    l.filterMap f = l.filterMap g ↔ ∀ a ∈ l, f a = g a := by
  refine ⟨fun heq => ?_, List.filterMap_congr⟩
  induction l with
  | nil => exact fun a ha => absurd ha List.not_mem_nil
  | cons a l ih =>
    obtain ⟨ha, hrest⟩ := List.forall_mem_cons.mp h
    rw [List.filterMap_cons, List.filterMap_cons] at heq
    have hsame : f a = g a := by
      refine ha.elim (fun hnone => ?_) id
      rw [hnone] at heq
      cases hg : g a with
      | none => exact hnone
      | some b =>
        -- the other list would be longer
        rw [hg] at heq
        have hlength : (l.filterMap f).length = (b :: l.filterMap g).length := congrArg _ heq
        have hle := length_filterMap_le hrest
        rw [List.length_cons] at hlength
        omega
    rw [hsame] at heq
    refine List.forall_mem_cons.mpr ⟨hsame, ih hrest ?_⟩
    cases hg : g a with
    | none =>
      rw [hg] at heq
      exact heq
    | some b =>
      rw [hg] at heq
      exact List.tail_eq_of_cons_eq heq

end Lists

/-! ## The server -/

namespace Populate

variable {σ : Type} (party : Session.Party σ Connection Request Answer) (c : Connection)
  (p : Populate) (model : String) (pool : Pool Connection) (s : σ)

/-- What the server answers when it is asked for the document with an identifier. -/
def answerTo (id : Bson) : Except DocumentFault (Option Document) :=
  (Session.run party (firstDocument c .own (findOneCommand model [("_id", id)] p.shape)) pool s).1

/-- What it answers when it is asked for the documents with any of several identifiers. -/
def answerToAll (ids : List Bson) : Except DocumentFault (List Document) :=
  (Session.run party
    (documents c .own (findCommand model [("_id", .doc [("$in", .arr ids)])] p.shape)) pool s).1

/-- Asked for several identifiers at once the server answers the documents that it would answer for
    each of them, in any order. -/
structure AnswersAlike (ids : List Bson) (found : List Document) : Prop where
  each : ∀ id ∈ ids, ∃ answer, answerTo party c p model pool s id = .ok answer
  all : answerToAll party c p model pool s ids = .ok found
  exactly : ∀ x, x ∈ found ↔ ∃ id ∈ ids, answerTo party c p model pool s id = .ok (some x)

/-- A document shows a value as its identifier. -/
def Shows (x : Document) (id : Bson) : Prop := ∃ v, Bson.get? "_id" x = some v ∧ v.same id = true

theorem not_shows {x : Document} {v id : Bson} (hv : Bson.get? "_id" x = some v)
    (hsame : v.same id = false) : ¬ Shows x id := by
  rintro ⟨v', hv', hsame'⟩
  cases hv.symm.trans hv'
  cases hsame.symm.trans hsame'

example : ¬ Shows [("_id", .int64 3)] (.int32 3) := not_shows rfl (by decide +kernel)

/-- A value that is looked up where it stands alone: neither nothing nor a list. -/
def IsReference : Bson → Prop
  | .null => False
  | .arr _ => False
  | _ => True

theorem isReference_int32 (n : Int) : IsReference (.int32 n) := trivial

/-- The document that is put in place of a value that stands alone in a document. -/
def alone (d : Document) (id : Bson) : Option Document :=
  match (Session.run party (inDocument c p model (Members.put p.path id d)) pool s).1 with
  | .ok d' => (Bson.get? p.path d').bind Bson.toDoc?
  | .error _ => none

/-! ## The same in both -/

section

variable {party c p model pool s} {ids : List Bson} {found : List Document} {d : Document}

theorem withId?_eq_some {id : Bson} {x : Document} (h : withId? found id = some x) :
    x ∈ found ∧ Shows x id := by
  refine ⟨List.mem_of_find?_eq_some h, ?_⟩
  have hshown := List.find?_some h
  split at hshown
  · next v hv => exact ⟨v, hv, hshown⟩
  · cases hshown

theorem exists_withId? {id : Bson} {x : Document} (hx : x ∈ found) (hshows : Shows x id) :
    ∃ y, withId? found id = some y := by
  obtain ⟨v, hv, hsame⟩ := hshows
  refine Option.isSome_iff_exists.mp (List.find?_isSome.mpr ⟨x, hx, ?_⟩)
  rw [hv]
  exact hsame

theorem resolve_of_isReference {id : Bson} (h : IsReference id) : resolve c p model id =
    (firstDocument c .own (findOneCommand model [("_id", id)] p.shape)).andThen fun found =>
      .done (.ok ((found.map .doc).getD .null)) := by
  cases id <;> first | rfl | exact h.elim

theorem inDocument_eq {reference : Bson} (hd : Bson.get? p.path d = some reference)
    (hthere : reference ≠ .null) : inDocument c p model d =
      (resolve c p model reference).andThen fun v => .done (.ok (Members.put p.path v d)) := by
  rw [inDocument, hd]
  cases reference <;> first | rfl | exact absurd rfl hthere

/-- What is found takes the place of a reference. -/
theorem run_inDocument {reference : Bson} (hd : Bson.get? p.path d = some reference)
    (hthere : reference ≠ .null) {v : Bson}
    (hresolved : (Session.run party (resolve c p model reference) pool s).1 = .ok v) :
    (Session.run party (inDocument c p model d) pool s).1 = .ok (Members.put p.path v d) := by
  rw [inDocument_eq hd hthere, Session.run_andThen party pool s hresolved]
  rfl

theorem run_resolve_list (hall : answerToAll party c p model pool s ids = .ok found) :
    (Session.run party (resolve c p model (.arr ids)) pool s).1 =
      .ok (.arr ((pick found ids).map .doc)) := by
  rw [resolve, Session.run_andThen party pool s hall]
  rfl

/-- A list of references becomes the list of the documents that are picked for them. -/
theorem apply_list (hmodel : p.model = some model) (hd : Bson.get? p.path d = some (.arr ids))
    (hall : answerToAll party c p model pool s ids = .ok found) :
    (Session.run party (p.apply c [d]) pool s).1 =
      .ok [Members.put p.path (.arr ((pick found ids).map .doc)) d] := by
  have hone := run_inDocument hd nofun (run_resolve_list hall)
  rw [apply, hmodel]
  show (Session.run party (inDocuments c p model [d]) pool s).1 = _
  rw [inDocuments, Session.run_andThen party pool s hone]
  rfl

/-- A reference that stands alone becomes what the server answers. -/
theorem alone_of_isReference {id : Bson} (h : IsReference id) {answer : Option Document}
    (hanswer : answerTo party c p model pool s id = .ok answer) :
    alone party c p model pool s d id = answer := by
  have hat : Bson.get? p.path (Members.put p.path id d) = some id := Members.find?_put_self _ _ _
  have hthere : id ≠ .null := fun hnull => by
    rw [hnull] at h
    exact h
  have hresolved : (Session.run party (resolve c p model id) pool s).1 =
      .ok ((answer.map .doc).getD .null) := by
    rw [resolve_of_isReference h, Session.run_andThen party pool s hanswer]
    rfl
  rw [alone, run_inDocument hat hthere hresolved]
  cases answer <;> simp [Bson.get?, Bson.toDoc?]

/-- What is no reference does not become a document. -/
theorem alone_of_not_isReference {id : Bson} (h : ¬ IsReference id) :
    alone party c p model pool s d id = none := by
  have hat : Bson.get? p.path (Members.put p.path id d) = some id := Members.find?_put_self _ _ _
  cases id with
  | null =>
    rw [alone, inDocument, hat]
    show (Bson.get? p.path (Members.put p.path .null d)).bind Bson.toDoc? = none
    rw [hat]
    rfl
  | arr ids =>
    rw [alone]
    cases hall : answerToAll party c p model pool s ids with
    | ok found =>
      rw [run_inDocument hat nofun (run_resolve_list hall)]
      simp [Bson.get?, Bson.toDoc?]
    | error e =>
      have hfailed : (Session.run party (resolve c p model (.arr ids)) pool s).1 = .error e :=
        Session.run_andThen_error party pool s _ hall
      rw [inDocument_eq hat nofun, Session.run_andThen_error party pool s _ hfailed]
  | _ => exact absurd trivial h

/-- Documents that show no identifier are picked for no reference. -/
theorem apply_list_unshown (hmodel : p.model = some model)
    (hd : Bson.get? p.path d = some (.arr ids))
    (hall : answerToAll party c p model pool s ids = .ok found)
    (hhidden : ∀ x ∈ found, Bson.get? "_id" x = none) :
    (Session.run party (p.apply c [d]) pool s).1 = .ok [Members.put p.path (.arr []) d] := by
  have hnone : pick found ids = [] := by
    refine List.filterMap_eq_nil_iff.mpr fun id _ => Option.eq_none_iff_forall_ne_some.mpr ?_
    intro x hx
    obtain ⟨hmem, v, hv, -⟩ := withId?_eq_some hx
    cases (hhidden x hmem).symm.trans hv
  rw [apply_list hmodel hd hall, hnone]
  rfl

/-- Which documents a list was replaced by can be read off the document with the list. -/
theorem replaced_inj {a b : List Document} :
    Members.put p.path (.arr (a.map .doc)) d = Members.put p.path (.arr (b.map .doc)) d ↔ a = b := by
  refine ⟨fun h => ?_, fun h => h ▸ rfl⟩
  have hat := congrArg (Members.find? p.path) h
  rw [Members.find?_put_self, Members.find?_put_self] at hat
  have hlists : a.map Bson.doc = b.map Bson.doc := Bson.arr.inj (Option.some.inj hat)
  exact List.map_injective_iff.mpr (fun _ _ => Bson.doc.inj) hlists

section Known

variable (halike : AnswersAlike party c p model pool s ids found)
  (hknown : ∀ id ∈ ids, ∀ x ∈ found, Shows x id →
    IsReference id ∧ answerTo party c p model pool s id = .ok (some x))

include hknown in
/-- What is picked for a reference is what it stands for alone. -/
theorem withId?_or_alone {id : Bson} (hid : id ∈ ids) :
    withId? found id = none ∨ withId? found id = alone party c p model pool s d id := by
  cases hpicked : withId? found id with
  | none => exact Or.inl rfl
  | some x =>
    obtain ⟨hx, hshows⟩ := withId?_eq_some hpicked
    obtain ⟨href, hanswer⟩ := hknown id hid x hx hshows
    exact Or.inr (alone_of_isReference href hanswer).symm

include halike in
/-- What a reference stands for alone is among the documents of the list. -/
theorem mem_of_alone {id : Bson} (hid : id ∈ ids) {x : Document}
    (h : alone party c p model pool s d id = some x) : x ∈ found := by
  by_cases href : IsReference id
  · obtain ⟨answer, hanswer⟩ := halike.each id hid
    rw [alone_of_isReference href hanswer] at h
    exact (halike.exactly x).mpr ⟨id, hid, h ▸ hanswer⟩
  · rw [alone_of_not_isReference href] at h
    cases h

include halike hknown in
/-- A document is picked for every reference that stands for one exactly when all of them show it. -/
theorem withId?_eq_alone_iff :
    (∀ id ∈ ids, withId? found id = alone party c p model pool s d id) ↔
      ∀ id ∈ ids, ∀ x, alone party c p model pool s d id = some x → Shows x id := by
  constructor
  · intro hpicked id hid x hx
    exact (withId?_eq_some ((hpicked id hid).trans hx)).2
  · intro hshown id hid
    rcases withId?_or_alone hknown hid with hnone | hsame
    · rw [hnone, eq_comm, Option.eq_none_iff_forall_ne_some]
      intro x hx
      obtain ⟨y, hy⟩ := exists_withId? (mem_of_alone halike hid hx) (hshown id hid x hx)
      cases hnone.symm.trans hy
    · exact hsame

end Known

/-- A server that answers alike, and knows a document by the identifier that it shows: a list of
    references comes to the documents that its references stand for one by one, in their order and
    without those that are missing, exactly when each of these documents shows the reference that it
    stands for. -/
theorem populate_list_iff (hmodel : p.model = some model)
    (hd : Bson.get? p.path d = some (.arr ids))
    (halike : AnswersAlike party c p model pool s ids found)
    (hknown : ∀ id ∈ ids, ∀ x ∈ found, Shows x id →
      IsReference id ∧ answerTo party c p model pool s id = .ok (some x)) :
    (Session.run party (p.apply c [d]) pool s).1 = .ok [Members.put p.path
        (.arr ((ids.filterMap (alone party c p model pool s d)).map .doc)) d] ↔
      ∀ id ∈ ids, ∀ x, alone party c p model pool s d id = some x → Shows x id := by
  rw [apply_list hmodel hd halike.all, Except.ok.injEq, List.singleton_inj, replaced_inj, pick,
    filterMap_eq_filterMap_iff fun id hid => withId?_or_alone hknown hid]
  exact withId?_eq_alone_iff halike hknown

end

/-! ## A server with two documents -/

section Shelf

/-- What lies on the shelf. -/
def shelf : List Document :=
  [[("_id", .int32 3), ("name", .str "three")], [("_id", .int32 4), ("name", .str "four")]]

/-- The identifiers that a filter asks for. -/
def wanted : Bson → List Bson
  | .doc [("_id", .doc [("$in", .arr ids)])] => ids
  | .doc [("_id", id)] => [id]
  | _ => []

/-- The documents that a request is answered with; a projection here leaves out `_id` at most. -/
def taken (command : Document) : List Document :=
  let ids := ((Bson.get? "filter" command).map wanted).getD []
  let hidden := ((Bson.get? "projection" command).bind Bson.toDoc?).any fun p =>
    (Bson.get? "_id" p).isSome
  let here := shelf.filter fun x => ((Bson.get? "_id" x).map fun v => ids.any v.same).getD false
  if hidden then here.map (Members.erase "_id") else here

/-- A server that answers every request from the shelf, in one batch. -/
def shop : Session.Party Unit Connection Request Answer where
  clock _ := 0
  connect _ s := (.timedOut, s)
  pause _ s := s
  close _ s := s
  send _ q s :=
    (.ok [("cursor", .doc [("firstBatch", .arr ((taken q.command).map .doc)), ("id", .int64 0),
      ("ns", .str "app.tags")]), ("ok", .int32 1)], s)

/-- A request for the tags of a post. -/
def tagged (select : Option Document) : Populate := ⟨"tags", some "tags", select⟩

/-- A post with tags. -/
def post (tags : List Bson) : Document := [("_id", .int32 1), ("tags", .arr tags)]

/-- What the server answers when it is asked for one tag. -/
abbrev tagOf (select : Option Document) : Bson → Except DocumentFault (Option Document) :=
  answerTo shop ⟨1, "app"⟩ (tagged select) "tags" (.empty default) ()

/-- Tags in another order than on the shelf, one of them twice and one that is not there: the
    documents show their identifiers, and the list is what its references are one by one. -/
theorem populate_list_iff_shelf :
    let ids : List Bson := [.int32 4, .int32 3, .int32 9, .int32 4]
    let alone := alone shop ⟨1, "app"⟩ (tagged none) "tags" (.empty default) () (post ids)
    (Session.run shop ((tagged none).apply ⟨1, "app"⟩ [post ids]) (.empty default) ()).1 =
        .ok [Members.put "tags" (.arr ((ids.filterMap alone).map .doc)) (post ids)] ∧
      ids.filterMap alone = [[("_id", .int32 4), ("name", .str "four")],
        [("_id", .int32 3), ("name", .str "three")], [("_id", .int32 4), ("name", .str "four")]] := by
  intro ids alone
  have hcases : ∀ {P : Bson → Prop}, P (.int32 4) → P (.int32 3) → P (.int32 9) → ∀ id ∈ ids, P id :=
    fun h₄ h₃ h₉ => by simp [ids, h₄, h₃, h₉]
  have h₃ : tagOf none (.int32 3) = .ok (some [("_id", .int32 3), ("name", .str "three")]) := rfl
  have h₄ : tagOf none (.int32 4) = .ok (some [("_id", .int32 4), ("name", .str "four")]) := rfl
  have h₉ : tagOf none (.int32 9) = .ok none := rfl
  have hexactly : ∀ x, x ∈ shelf ↔ ∃ id ∈ ids, tagOf none id = .ok (some x) := by
    intro x
    simp only [ids, List.exists_mem_cons_iff, h₃, h₄, h₉]
    simp [shelf, eq_comm, or_comm]
  have ha₃ : alone (.int32 3) = _ := alone_of_isReference (isReference_int32 3) h₃
  have ha₄ : alone (.int32 4) = _ := alone_of_isReference (isReference_int32 4) h₄
  have ha₉ : alone (.int32 9) = none := alone_of_isReference (isReference_int32 9) h₉
  have hshown : ∀ id ∈ ids, ∀ x, alone id = some x → Shows x id := by
    refine hcases (fun x hx => ?_) (fun x hx => ?_) fun x hx => ?_
    · cases ha₄.symm.trans hx
      exact ⟨.int32 4, rfl, by decide +kernel⟩
    · cases ha₃.symm.trans hx
      exact ⟨.int32 3, rfl, by decide +kernel⟩
    · cases ha₉.symm.trans hx
  have hknown : ∀ id ∈ ids, ∀ x ∈ shelf, Shows x id →
      IsReference id ∧ tagOf none id = .ok (some x) := by
    have hshelf : ∀ {P : Document → Prop}, P [("_id", .int32 3), ("name", .str "three")] →
        P [("_id", .int32 4), ("name", .str "four")] → ∀ x ∈ shelf, P x := fun hthree hfour =>
      List.forall_mem_cons.mpr ⟨hthree, List.forall_mem_singleton.mpr hfour⟩
    refine hcases (hshelf (fun h => ?_) fun _ => ⟨trivial, h₄⟩)
      (hshelf (fun _ => ⟨trivial, h₃⟩) fun h => ?_) (hshelf (fun h => ?_) fun h => ?_)
    all_goals exact absurd h (not_shows rfl (by decide +kernel))
  have hall : answerToAll shop ⟨1, "app"⟩ (tagged none) "tags" (.empty default) () ids = .ok shelf :=
    rfl
  have halike : AnswersAlike shop ⟨1, "app"⟩ (tagged none) "tags" (.empty default) () ids shelf :=
    ⟨hcases ⟨_, h₄⟩ ⟨_, h₃⟩ ⟨_, h₉⟩, hall, hexactly⟩
  have hpost : Bson.get? (tagged none).path (post ids) = some (.arr ids) := rfl
  refine ⟨(populate_list_iff rfl hpost halike hknown).mpr hshown, ?_⟩
  simp [ids, ha₃, ha₄, ha₉]

/-- A selection of the names without the identifiers: the server answers alike, the reference alone is
    replaced by its document, and the list of it is emptied. -/
theorem populate_list_iff_unshown :
    let p := tagged (some [("name", .int32 1), ("_id", .int32 0)])
    let ids : List Bson := [.int32 3]
    let alone := alone shop ⟨1, "app"⟩ p "tags" (.empty default) () (post ids)
    let listed := (Session.run shop (p.apply ⟨1, "app"⟩ [post ids]) (.empty default) ()).1
    AnswersAlike shop ⟨1, "app"⟩ p "tags" (.empty default) () ids [[("name", .str "three")]] ∧
      ids.filterMap alone = [[("name", .str "three")]] ∧ listed = .ok [post []] ∧
      listed ≠ .ok [Members.put "tags" (.arr ((ids.filterMap alone).map .doc)) (post ids)] := by
  intro p ids alone listed
  have hanswer : tagOf (some [("name", .int32 1), ("_id", .int32 0)]) (.int32 3) =
      .ok (some [("name", .str "three")]) := rfl
  have halone : ids.filterMap alone = [[("name", .str "three")]] := by
    have hone : alone (.int32 3) = _ := alone_of_isReference (isReference_int32 3) hanswer
    simp [ids, hone]
  have hall : answerToAll shop ⟨1, "app"⟩ p "tags" (.empty default) () ids =
      .ok [[("name", .str "three")]] := rfl
  have hpost : Bson.get? p.path (post ids) = some (.arr ids) := rfl
  have hemptied : listed = .ok [post []] :=
    apply_list_unshown rfl hpost hall (List.forall_mem_singleton.mpr rfl)
  refine ⟨⟨?_, hall, fun x => ?_⟩, halone, hemptied, ?_⟩
  · exact List.forall_mem_singleton.mpr ⟨_, hanswer⟩
  · constructor
    · intro hx
      obtain rfl := List.mem_singleton.mp hx
      exact ⟨.int32 3, List.mem_singleton_self _, hanswer⟩
    · rintro ⟨id, hid, hid'⟩
      obtain rfl := List.mem_singleton.mp hid
      cases hanswer.symm.trans hid'
      exact List.mem_singleton_self _
  · rw [hemptied, halone]
    intro hsame
    have hput : Members.put p.path (.arr (([] : List Document).map .doc)) (post ids) =
        Members.put p.path (.arr ([[("name", Bson.str "three")]].map .doc)) (post ids) :=
      List.singleton_inj.mp (Except.ok.inj hsame)
    cases replaced_inj.mp hput

end Shelf

end Populate
end Polyshell.Mongo
