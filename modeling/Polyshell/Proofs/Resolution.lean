/-
  Profiles and the servers that commands reach by them.

  A profile is the first one by its name in the configuration; the resolver keeps the last server that
  was put under a name.  In a configuration that can be used there is one of each, so both agree
  (`find?_ofConfig`).  What `resolver_agrees` adds is the way from a command line: the profile that a run
  selects is one of its checked configuration, and its executor finds the server of that profile.
-/
import Polyshell.CommandLine.Invocation
import Polyshell.Executor
import Polyshell.Proofs.Config.Usable
import Polyshell.Proofs.Except

namespace Polyshell

/-! ## Servers of profiles -/

/-- A server is the one that a profile describes: texts that are empty say nothing. -/
structure Target.IsOf (t : Target) (p : Profile) : Prop where
  backend : t.backend = p.backend
  host : t.host = p.host
  port : t.port = p.port.getD p.backend.defaultPort
  username : ∀ u, t.username = some u ↔ p.username = some u ∧ u ≠ ""
  password : ∀ w, t.password = some ⟨w⟩ ↔ p.password = some w ∧ w ≠ ""
  database : ∀ d, t.database = some d ↔ p.database = some d ∧ d ≠ ""

theorem Target.filled_eq_some_iff {s : Option String} {u : String} :
    filled s = some u ↔ s = some u ∧ u ≠ "" := by
  rw [filled, Option.filter_eq_some_iff, Bool.not_eq_true', ← Bool.not_eq_true, String.isEmpty_iff]

theorem Target.ofProfile_isOf (p : Profile) : (Target.ofProfile p).IsOf p where
  backend := rfl
  host := rfl
  port := rfl
  username _ := filled_eq_some_iff
  password w := by
    rw [← filled_eq_some_iff, ofProfile, Option.map_eq_some_iff]
    exact ⟨fun ⟨w', hw', heq⟩ => Secret.mk.inj heq ▸ hw', fun hw => ⟨w, hw, rfl⟩⟩
  database _ := filled_eq_some_iff

/-- Only one server is the one that a profile describes. -/
theorem Target.IsOf.eq_ofProfile {t : Target} {p : Profile} (h : t.IsOf p) : t = .ofProfile p := by
  have hp := ofProfile_isOf p
  have hpassword : t.password = (Target.ofProfile p).password := by
    ext ⟨w⟩
    rw [h.password, hp.password]
  have husername : t.username = (Target.ofProfile p).username := by
    ext u
    rw [h.username, hp.username]
  have hdatabase : t.database = (Target.ofProfile p).database := by
    ext d
    rw [h.database, hp.database]
  cases t
  exact Target.mk.injEq .. |>.mpr
    ⟨h.backend, h.host, h.port, husername, hpassword, hdatabase⟩

/-! ## The resolver of a configuration -/

namespace Resolver

/-- A server under a new name is put behind the others. -/
theorem insert_of_not_mem {r : Resolver} {id : String} (t : Target)
    (h : ∀ x ∈ r.targets, x.1 ≠ id) : r.insert id t = ⟨r.targets ++ [(id, t)]⟩ := by
  rw [insert, List.filter_eq_self.mpr fun x hx => bne_iff_ne.mpr (h x hx)]

/-- Profiles by different names are put one behind the other. -/
theorem foldl_insert (ps : List Profile) : ∀ {r : Resolver}, (ps.map Profile.id).Nodup →
    (∀ x ∈ r.targets, ∀ p ∈ ps, x.1 ≠ p.id) →
    ps.foldl (fun r p => r.insert p.id (.ofProfile p)) r =
      ⟨r.targets ++ ps.map fun p => (p.id, Target.ofProfile p)⟩ := by
  induction ps with
  | nil =>
    intro r _ _
    rw [List.foldl_nil, List.map_nil, List.append_nil]
  | cons p ps ih =>
    intro r hdistinct hnew
    rw [List.map_cons, List.nodup_cons] at hdistinct
    have hfirst := insert_of_not_mem (Target.ofProfile p) fun x hx => hnew x hx p List.mem_cons_self
    have hrest : ∀ x ∈ r.targets ++ [(p.id, Target.ofProfile p)], ∀ q ∈ ps, x.1 ≠ q.id := by
      intro x hx q hq
      rcases List.mem_append.mp hx with hx | hx
      · exact hnew x hx q (List.mem_cons_of_mem p hq)
      · obtain rfl := List.mem_singleton.mp hx
        exact fun heq => hdistinct.1 (List.mem_map.mpr ⟨q, hq, heq.symm⟩)
    rw [List.foldl_cons, hfirst, ih hdistinct.2 hrest, List.append_assoc, List.singleton_append,
      List.map_cons]

variable {c : Config}

/-- The resolver lists the profiles in their order. -/
theorem targets_ofConfig (h : c.Usable) :
    (ofConfig c).targets = c.connections.map fun p => (p.id, Target.ofProfile p) := by
  rw [ofConfig, foldl_insert c.connections h.distinct fun _ hx => absurd hx List.not_mem_nil,
    List.nil_append]

theorem find?_ofConfig (h : c.Usable) (id : String) :
    (ofConfig c).find? id = (c.profile? id).map Target.ofProfile := by
  rw [find?, targets_ofConfig h, List.find?_map, Option.map_map, Config.profile?]
  rfl

/-- A name stands for a server if it is that of a profile of the kind that is asked for. -/
theorem resolve_ofConfig (h : c.Usable) {backend : Backend} {id : String} {t : Target} :
    (ofConfig c).resolve backend id = .ok t ↔
      ∃ p, c.profile? id = some p ∧ p.backend = backend ∧ t.IsOf p := by
  rw [resolve, find?_ofConfig h]
  constructor
  · intro ht
    cases hp : c.profile? id with
    | none =>
      rw [hp] at ht
      cases ht
    | some p =>
      rw [hp] at ht
      replace ht : (if p.backend = backend then Except.ok (Target.ofProfile p) else _) = .ok t := ht
      split at ht
      · next hkind =>
        cases ht
        exact ⟨p, rfl, hkind, Target.ofProfile_isOf p⟩
      · cases ht
  · rintro ⟨p, hp, hkind, ht⟩
    rw [hp, ht.eq_ofProfile]
    exact if_pos hkind

end Resolver

/-! ## The profile of a run -/

namespace CommandLine

/-- A run has a configuration that was checked. -/
theorem usable_of_ofArguments {s : Config.Surroundings} {a : Arguments} {i : Invocation}
    (h : Invocation.ofArguments s a = .ok i) : i.config.Usable := by
  obtain ⟨loaded, -, h⟩ := exists_of_bind h
  obtain ⟨config, -, h⟩ := exists_of_bind h
  obtain ⟨_, hcheck, h⟩ := exists_of_bind h
  cases h
  exact Config.check_eq_ok_iff.mp (eq_ok_of_mapError hcheck)

/-- In a configuration that can be used, a profile is found by its name. -/
theorem profile?_of_mem {c : Config} (h : c.Usable) {p : Profile} (hp : p ∈ c.connections) :
    c.profile? p.id = some p := by
  obtain ⟨q, hq⟩ : ∃ q, c.profile? p.id = some q := by
    rw [← Option.isSome_iff_exists, Config.profile?, List.find?_isSome]
    exact ⟨p, hp, beq_self_eq_true p.id⟩
  have hid : q.id = p.id := beq_iff_eq.mp (List.find?_some (p := fun q : Profile => q.id == p.id) hq)
  rwa [List.inj_on_of_nodup_map h.distinct (List.mem_of_find?_eq_some hq) hp hid] at hq

theorem mem_of_named {c : Config} {id : String} {fault : ShellError} {p : Profile}
    (h : (match c.profile? id with
      | some p => Except.ok p
      | none => .error fault : Except ShellError Profile) = .ok p) : p ∈ c.connections := by
  split at h
  · next q hq =>
    cases h
    exact List.mem_of_find?_eq_some hq
  · cases h

/-- The profile that a run selects is one of its configuration. -/
theorem mem_of_profile {i : Invocation} {p : Profile} (h : i.profile = .ok p) :
    p ∈ i.config.connections := by
  rw [Invocation.profile] at h
  split at h
  · exact mem_of_named h
  · split at h
    · exact mem_of_named h
    · split at h
      · next q ps hps =>
        cases h
        rw [hps]
        exact List.mem_cons_self
      · cases h

/-- The resolver of a checked configuration has one server for each profile, and gives for a name and a
    kind the server of the profile by that name if it is of that kind; so the executor of a run finds the
    server of the profile that the run selects. -/
theorem resolver_agrees :
    (∀ c : Config, c.check = .ok () →
      (∀ backend id t, (Resolver.ofConfig c).resolve backend id = .ok t ↔
        ∃ p, c.profile? id = some p ∧ p.backend = backend ∧ t.IsOf p) ∧
      (Resolver.ofConfig c).size = c.connections.length) ∧
    ∀ (s : Config.Surroundings) (a : Arguments) (i : Invocation) (p : Profile),
      Invocation.ofArguments s a = .ok i → i.profile = .ok p →
      ∃ t, (Executor.ofConfig i.config).resolver.resolve p.backend p.id = .ok t ∧ t.IsOf p := by
  refine ⟨fun c hc => ?_, fun s a i p hi hp => ?_⟩
  · have husable := Config.check_eq_ok_iff.mp hc
    refine ⟨fun backend id t => Resolver.resolve_ofConfig husable, ?_⟩
    rw [Resolver.size, Resolver.targets_ofConfig husable, List.length_map]
  · have husable := usable_of_ofArguments hi
    have hfound := profile?_of_mem husable (mem_of_profile hp)
    exact ⟨_, (Resolver.resolve_ofConfig husable).mpr ⟨p, hfound, rfl, Target.ofProfile_isOf p⟩,
      Target.ofProfile_isOf p⟩

/-- The file has a profile by the name that the arguments give to theirs; the server of the arguments is
    found. -/
theorem resolver_agrees_ad_hoc : ∃ (i : Invocation) (t : Target), i.arguments.host = some "cache" ∧
    (Executor.ofConfig i.config).resolver.resolve .keyValue adHoc = .ok t ∧ t.host = "cache" ∧
      t.port = 6379 := by
  let file : String := "[[connections]]\nid = 'cli'\nbackend = 'mysql'\nhost = 'db'\n"
  let s : Config.Surroundings := ⟨fun _ => .text file, fun _ => none, "/home"⟩
  let a : Arguments := ⟨none, some "redis", some "cache", none, none, none, none, none, none, none, none,
    false, false, false, none⟩
  have hrun : (Invocation.ofArguments s a).toOption.any (fun i => i.arguments.host = some "cache" ∧
      i.profile.toOption = some ⟨adHoc, .keyValue, "cache", none, none, none, none⟩) = true := by
    decide +kernel
  obtain ⟨i, hi, hselected⟩ := (Option.any_eq_true _ _).mp hrun
  obtain ⟨hhost, hprofile⟩ := of_decide_eq_true hselected
  obtain ⟨t, hfound, ht⟩ := resolver_agrees.2 s a i _ (eq_ok_of_toOption hi)
    (eq_ok_of_toOption hprofile)
  exact ⟨i, t, hhost, hfound, ht.host, ht.port⟩

end CommandLine
end Polyshell
