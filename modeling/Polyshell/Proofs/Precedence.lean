/-
  Which source of the configuration wins.

  1. **Outcome** — a run checks the configuration of the file and the environment, and then the one
     under its arguments too (`ofArguments_eq`).

  2. **What the arguments repair** — the second check passes where the first does not only if the
     arguments override what is at fault (`overridden_of_usable`).

  3. **Precedence** — a run whose checks pass has every setting from the highest source that gives it,
     and what a higher source overrides counts for the checks at most (`ofArguments_precedence`).
-/
import Mathlib.Data.List.Count
import Polyshell.Proofs.Config.Layers
import Polyshell.Proofs.Config.Usable

namespace Polyshell.CommandLine

open Config (Surroundings)

/-! ## Outcome -/

/-- All that is said about a configuration can be read: `doc` is in the file, `ps` are the profiles in
    it, and `own` is the profile of the arguments, if they make one. -/
structure Readable (s : Surroundings) (a : Arguments) (doc : Toml.Members) (ps : List Profile)
    (own : Option Profile) : Prop where
  file : Config.Holds s a.configFile doc
  parsed : ∃ c, Config.ofToml doc = .ok c
  profiles : Config.readProfiles doc = .ok ps
  legible : Config.Legible s.env
  own : a.profile? = .ok own

/-- The sources that are there without arguments, the highest first. -/
def standing (s : Surroundings) (doc : Toml.Members) : List Layer :=
  [Layer.ofEnvironment s.env, Layer.ofFile doc]

/-- All sources, the highest first. -/
def sources (s : Surroundings) (a : Arguments) (doc : Toml.Members) : List Layer :=
  Layer.ofArguments a :: standing s doc

/-- The configuration without the arguments. -/
def loaded (s : Surroundings) (doc : Toml.Members) (ps : List Profile) : Config :=
  .ofLayers (standing s doc) ps

/-- The configuration of all sources. -/
def merged (s : Surroundings) (a : Arguments) (doc : Toml.Members) (ps : List Profile)
    (own : Option Profile) : Config :=
  .ofLayers (sources s a doc) (withProfile ps own)

/-- What can be computed of a text makes it readable. -/
theorem exists_readable {s : Surroundings} {a : Arguments} {text : String} {ps : List Profile}
    {own : Option Profile} {P : Toml.Members → Prop} [DecidablePred P]
    (hfile : ∀ doc, Toml.read text.toList = .ok doc → Config.Holds s a.configFile doc)
    (hlegible : Config.Legible s.env) (hown : a.profile? = .ok own)
    (h : (Toml.read text.toList).toOption.any (fun doc => (Config.ofToml doc).toOption.isSome ∧
      (Config.readProfiles doc).toOption = some ps ∧ P doc) = true) :
    ∃ doc, Readable s a doc ps own ∧ P doc := by
  obtain ⟨doc, hdoc, hfacts⟩ := (Option.any_eq_true _ _).mp h
  obtain ⟨hparsed, hprofiles, hP⟩ := of_decide_eq_true hfacts
  obtain ⟨c, hc⟩ := Option.isSome_iff_exists.mp hparsed
  have hread := hfile doc (eq_ok_of_toOption hdoc)
  exact ⟨doc, ⟨hread, ⟨c, eq_ok_of_toOption hc⟩, eq_ok_of_toOption hprofiles, hlegible, hown⟩, hP⟩

section Run

variable {s : Surroundings} {a : Arguments} {doc : Toml.Members} {ps : List Profile}
  {own : Option Profile}

theorem load_eq (h : Readable s a doc ps own) :
    Config.load s a.configFile = (do
      (loaded s doc ps).check.mapError ShellError.config
      return loaded s doc ps) := by
  obtain ⟨c, hc⟩ := h.parsed
  obtain ⟨ps', hps', hlayer⟩ := Config.ofToml_eq hc
  obtain rfl : ps' = ps := Except.ok.inj (hps'.symm.trans h.profiles)
  have hoverride : c.override s.env = (loaded s doc ps', none) := by
    rw [hlayer, Config.override_ofLayers h.legible]
    rfl
  have hread : Config.onDisk s a.configFile = pure c := Config.onDisk_of_holds h.file hc
  rw [Config.load, hread, pure_bind, hoverride]

/-- What a run comes to: both configurations are checked, the one without the arguments first. -/
theorem ofArguments_eq (h : Readable s a doc ps own) :
    Invocation.ofArguments s a = (do
      (loaded s doc ps).check.mapError ShellError.config
      (merged s a doc ps own).check.mapError ShellError.config
      return ⟨a, merged s a doc ps own, s.home⟩) := by
  have happly : a.applyTo (loaded s doc ps) = .ok (merged s a doc ps own) :=
    applyTo_ofLayers h.own (standing s doc) ps
  rw [Invocation.ofArguments, load_eq h]
  cases (loaded s doc ps).check with
  | error e => rfl
  | ok _ =>
    show ((a.applyTo (loaded s doc ps)).mapError ShellError.config >>= _) = _
    rw [happly]
    rfl

theorem ofArguments_eq_ok_iff (h : Readable s a doc ps own) {i : Invocation} :
    Invocation.ofArguments s a = .ok i ↔ (loaded s doc ps).check = .ok () ∧
      (merged s a doc ps own).check = .ok () ∧ i = ⟨a, merged s a doc ps own, s.home⟩ := by
  rw [ofArguments_eq h]
  cases (loaded s doc ps).check with
  | error e => exact iff_of_false (fun h => nomatch h) fun h => nomatch h.1
  | ok _ =>
    cases (merged s a doc ps own).check with
    | error e => exact iff_of_false (fun h => nomatch h) fun h => nomatch h.2.1
    | ok _ =>
      constructor
      · intro hi
        exact ⟨rfl, rfl, (Except.ok.inj hi).symm⟩
      · rintro ⟨-, -, rfl⟩
        rfl

/-! ## What the arguments repair -/

/-- The arguments take the place of something that cannot be used: of a timeout of zero, or of profiles
    by the name of their own, one of which has no host or of which there are several. -/
def Repairs (s : Surroundings) (a : Arguments) (doc : Toml.Members) (ps : List Profile)
    (own : Option Profile) : Prop :=
  (a.timeout.isSome = true ∧ settingUnder (standing s doc) .connectTimeout = 0) ∨
    ∃ p, own = some p ∧
      ((∃ q ∈ ps, q.id = p.id ∧ isBlankText q.host = true) ∨ 1 < ps.countP fun q => q.id == p.id)

/-- Names are distinct if those other than `id` are, and `id` is there once at most. -/
theorem nodup_of_filter {id : String} (hothers : ((ps.filter fun q => q.id != id).map Profile.id).Nodup)
    (hid : ps.countP (fun q => q.id == id) ≤ 1) : (ps.map Profile.id).Nodup := by
  rw [List.nodup_iff_count_le_one] at hothers ⊢
  intro k
  rw [List.count, List.countP_map]
  by_cases hk : k = id
  · rw [hk]
    exact hid
  · have hcount := hothers k
    rw [List.count, List.countP_map, List.countP_filter] at hcount
    refine Nat.le_trans (Nat.le_of_eq (List.countP_congr fun q _ => ?_)) hcount
    show (q.id == k) = true ↔ (q.id == k && q.id != id) = true
    rw [Bool.and_eq_true, beq_iff_eq, bne_iff_ne]
    exact ⟨fun h => ⟨h, h.trans_ne hk⟩, fun h => h.1⟩

/-- Where the arguments repair nothing, a configuration that can be used with them can be used without
    them. -/
theorem usable_of_merged (h : (merged s a doc ps own).Usable) (hrepairs : ¬ Repairs s a doc ps own) :
    (loaded s doc ps).Usable := by
  obtain ⟨htimeout, hown⟩ := not_or.mp hrepairs
  have hconnect : settingUnder (standing s doc) .connectTimeout ≠ 0 := by
    cases ha : a.timeout with
    | some n =>
      intro hzero
      exact htimeout ⟨by rw [ha]; rfl, hzero⟩
    | none =>
      have hset : settingUnder (sources s a doc) .connectTimeout =
          settingUnder (standing s doc) .connectTimeout := by
        rw [sources, settingUnder_cons, Layer.ofArguments, ha]
        rfl
      rw [← hset]
      exact h.connectTimeout
  refine ⟨h.idleTtl, h.sweepInterval, hconnect, ?_, ?_⟩
  · intro q hq
    cases own with
    | none => exact h.profiles q hq
    | some p =>
      by_cases hid : q.id = p.id
      · have hp : p.Usable := h.profiles p (List.mem_append_right _ List.mem_cons_self)
        refine ⟨hid ▸ hp.id, Bool.eq_false_iff.mpr fun hblank => hown ⟨p, rfl, Or.inl ?_⟩⟩
        exact ⟨q, hq, hid, hblank⟩
      · exact h.profiles q (List.mem_append_left _ (List.mem_filter.mpr ⟨hq, bne_iff_ne.mpr hid⟩))
  · cases own with
    | none => exact h.distinct
    | some p =>
      have hothers : ((ps.filter fun q => q.id != p.id).map Profile.id).Nodup := by
        have hall : ((ps.filter fun q => q.id != p.id) ++ [p]).map Profile.id |>.Nodup := h.distinct
        rw [List.map_append] at hall
        exact hall.of_append_left
      exact nodup_of_filter hothers (Nat.not_lt.mp fun hmany => hown ⟨p, rfl, Or.inr hmany⟩)

end Run

/-! ## Precedence -/

/-- A run succeeds exactly if the configuration of all its sources passes the check and the one without
    the arguments does too, as it does unless the arguments repair something.  Then every setting has the
    value from the highest source that gives it one, and the profile of the arguments has taken the place
    of those by its name.  Runs that agree on these values and profiles, and on the check without the
    arguments, come to the same whatever else their sources say. -/
theorem ofArguments_precedence : ∀ (s : Surroundings) (a : Arguments) (doc : Toml.Members)
    (ps : List Profile) (own : Option Profile), Readable s a doc ps own →
    ((∃ i, Invocation.ofArguments s a = .ok i) ↔
      (merged s a doc ps own).check = .ok () ∧ (loaded s doc ps).check = .ok ()) ∧
    (¬ Repairs s a doc ps own → (merged s a doc ps own).check = .ok () →
      (loaded s doc ps).check = .ok ()) ∧
    (∀ i, Invocation.ofArguments s a = .ok i → i.config.connections = withProfile ps own ∧
      ∀ x, i.config.value x = ((sources s a doc).findSome? fun l => l x).getD x.default) ∧
    ∀ (s' : Surroundings) (a' : Arguments) (doc' : Toml.Members) (ps' : List Profile)
      (own' : Option Profile), Readable s' a' doc' ps' own' →
      (∀ x, ((sources s' a' doc').findSome? fun l => l x).getD x.default =
        ((sources s a doc).findSome? fun l => l x).getD x.default) →
      withProfile ps' own' = withProfile ps own →
      (loaded s' doc' ps').check = (loaded s doc ps).check →
      (Invocation.ofArguments s' a').map Invocation.config =
        (Invocation.ofArguments s a).map Invocation.config := by
  intro s a doc ps own h
  refine ⟨⟨?_, ?_⟩, ?_, ?_, ?_⟩
  · rintro ⟨i, hi⟩
    obtain ⟨hloaded, hmerged, -⟩ := (ofArguments_eq_ok_iff h).mp hi
    exact ⟨hmerged, hloaded⟩
  · rintro ⟨hmerged, hloaded⟩
    exact ⟨_, (ofArguments_eq_ok_iff h).mpr ⟨hloaded, hmerged, rfl⟩⟩
  · intro hrepairs hmerged
    rw [Config.check_eq_ok_iff] at hmerged ⊢
    exact usable_of_merged hmerged hrepairs
  · intro i hi
    obtain ⟨-, -, rfl⟩ := (ofArguments_eq_ok_iff h).mp hi
    exact ⟨rfl, Config.value_ofLayers _ _⟩
  · intro s' a' doc' ps' own' h' hvalue hprofiles hloaded
    have hmerged : merged s' a' doc' ps' own' = merged s a doc ps own := by
      refine Config.ext_of_value (fun x => ?_) hprofiles
      rw [merged, merged, Config.value_ofLayers, Config.value_ofLayers]
      exact hvalue x
    rw [ofArguments_eq h, ofArguments_eq h', hmerged, hloaded]
    cases (loaded s doc ps).check with
    | error e => rfl
    | ok _ => cases (merged s a doc ps own).check <;> rfl

/-- Of a timeout in the file and one in a variable the variable counts, and the switch for the level
    counts though neither says anything of it. -/
theorem ofArguments_precedence_layers : ∃ i : Invocation, i.config.value .idleTtl = 50 ∧
    i.config.value .connectTimeout = 7 ∧ i.config.value .retryAttempts = 3 ∧
    i.config.value .level = LogLevel.debug ∧
    i.config.connections = [⟨adHoc, .document, "cache", none, none, none, none⟩] := by
  let file : String := "[pool]\nidle_ttl = 50\nconnect_timeout = 5\n" ++
    "[[connections]]\nid = 'cli'\nbackend = 'mysql'\nhost = 'db'\n"
  let env : Environment := fun name =>
    if name = "DBSHELL_POOL_CONNECT_TIMEOUT" then some "7" else none
  let s : Surroundings := ⟨fun _ => .text file, env, "/home"⟩
  let a : Arguments := ⟨none, none, some "cache", none, none, none, none, none, none, none, none,
    false, true, false, none⟩
  let p : Profile := ⟨"cli", .relational, "db", none, none, none, none⟩
  let own : Profile := ⟨adHoc, .document, "cache", none, none, none, none⟩
  have hlegible : Config.Legible env := by
    intro x
    cases x <;> decide +kernel
  have hown : a.profile? = .ok (some own) := rfl
  have hread : (Toml.read file.toList).toOption.any (fun doc =>
      (Config.ofToml doc).toOption.isSome ∧ (Config.readProfiles doc).toOption = some [p] ∧
        (merged s a doc [p] (some own)).fault? = none ∧ (loaded s doc [p]).fault? = none ∧
        settingUnder (sources s a doc) .idleTtl = 50 ∧
        settingUnder (sources s a doc) .connectTimeout = 7 ∧
        settingUnder (sources s a doc) .retryAttempts = 3 ∧
        settingUnder (sources s a doc) .level = LogLevel.debug) = true := by
    decide +kernel
  obtain ⟨doc, hreadable, hmerged, hloaded, hidle, hconnect, hattempts, hlevel⟩ :=
    exists_readable (s := s) (fun _ hdoc => .own rfl hdoc) hlegible hown hread
  obtain ⟨hsucceeds, -, hvalues, -⟩ := ofArguments_precedence s a doc [p] (some own) hreadable
  obtain ⟨i, hi⟩ := hsucceeds.mpr
    ⟨Config.check_eq_ok_iff.mpr (Config.fault?_eq_none_iff.mp hmerged),
      Config.check_eq_ok_iff.mpr (Config.fault?_eq_none_iff.mp hloaded)⟩
  obtain ⟨hconnections, hvalue⟩ := hvalues i hi
  exact ⟨i, (hvalue _).trans hidle, (hvalue _).trans hconnect, (hvalue _).trans hattempts,
    (hvalue _).trans hlevel, hconnections⟩

/-- A timeout of zero in the file is a fault although the arguments override it. -/
theorem ofArguments_not_by_merged : ¬ ∀ (s : Surroundings) (a : Arguments) (doc : Toml.Members)
    (ps : List Profile) (own : Option Profile), Readable s a doc ps own →
    ((∃ i, Invocation.ofArguments s a = .ok i) ↔ (merged s a doc ps own).check = .ok ()) := by
  intro hall
  let file : String := "[pool]\nconnect_timeout = 0\n"
  let s : Surroundings := ⟨fun _ => .text file, fun _ => none, "/home"⟩
  let a : Arguments := ⟨none, none, none, none, none, none, none, none, none, some "config.toml", some 3,
    false, false, false, none⟩
  have hlegible : Config.Legible s.env := by
    intro x
    cases x <;> rfl
  have hown : a.profile? = .ok none := rfl
  have hread : (Toml.read file.toList).toOption.any (fun doc =>
      (Config.ofToml doc).toOption.isSome ∧ (Config.readProfiles doc).toOption = some [] ∧
        (merged s a doc [] none).fault? = none) = true := by
    decide +kernel
  have hfails : (Invocation.ofArguments s a).toOption.isNone = true := by decide +kernel
  obtain ⟨doc, hreadable, hmerged⟩ :=
    exists_readable (s := s) (fun _ hdoc => .named rfl hdoc) hlegible hown hread
  obtain ⟨i, hi⟩ := (hall s a doc [] none hreadable).mpr
    (Config.check_eq_ok_iff.mpr (Config.fault?_eq_none_iff.mp hmerged))
  rw [hi] at hfails
  cases hfails

end Polyshell.CommandLine
