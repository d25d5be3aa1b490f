/-
  When a configuration can be used.

  `Config.check` looks for the first fault; `Config.Usable` says what it means that there is none, and
  mentions no order: durations are positive, every profile has a name and a host, and no two profiles
  have one name (`check_eq_ok_iff`).
-/
import Mathlib.Data.List.Nodup
import Polyshell.Config

namespace Polyshell

/-- A profile that says what it is called and where its server is. -/
structure Profile.Usable (p : Profile) : Prop where
  id : isBlankText p.id = false
  host : isBlankText p.host = false

namespace Config

/-- A configuration that can be used. -/
structure Usable (c : Config) : Prop where
  idleTtl : c.pool.idleTtl ≠ 0
  sweepInterval : c.pool.sweepInterval ≠ 0
  connectTimeout : c.pool.connectTimeout ≠ 0
  profiles : ∀ p ∈ c.connections, p.Usable
  distinct : (c.connections.map Profile.id).Nodup

end Config

theorem zeroFault?_eq_none_iff {settings : List (String × Nat)} :
    zeroFault? settings = none ↔ ∀ x ∈ settings, x.2 ≠ 0 := by
  induction settings with
  | nil => exact iff_of_true rfl fun _ h => absurd h List.not_mem_nil
  | cons x r ih =>
    obtain ⟨field, n⟩ := x
    rw [zeroFault?, List.forall_mem_cons]
    split
    · next h => exact iff_of_false (Option.some_ne_none _) fun hall => hall.1 h
    · next h => rw [ih, and_iff_right (show (field, n).2 ≠ 0 from h)]

theorem Profile.fault?_eq_none_iff {seen : List String} {p : Profile} :
    p.fault? seen = none ↔ p.Usable ∧ p.id ∉ seen := by
  rw [Profile.fault?]
  constructor
  · intro h
    split at h
    · cases h
    · next hid =>
      split at h
      · cases h
      · next hhost =>
        split at h
        · cases h
        · next hseen =>
          rw [List.contains_iff_mem] at hseen
          exact ⟨⟨Bool.eq_false_iff.mpr hid, Bool.eq_false_iff.mpr hhost⟩, hseen⟩
  · rintro ⟨⟨hid, hhost⟩, hseen⟩
    rw [hid, hhost, if_neg Bool.false_ne_true, if_neg Bool.false_ne_true,
      if_neg (List.contains_iff_mem.not.mpr hseen)]

/-- Names are compared with those before them, and so each with each. -/
theorem profilesFault?_eq_none_iff {ps : List Profile} : ∀ {seen : List String},
    profilesFault? seen ps = none ↔
      (∀ p ∈ ps, p.Usable) ∧ (ps.map Profile.id).Nodup ∧ ∀ p ∈ ps, p.id ∉ seen := by
  induction ps with
  | nil =>
    intro seen
    exact iff_of_true rfl ⟨fun _ h => absurd h List.not_mem_nil, List.nodup_nil,
      fun _ h => absurd h List.not_mem_nil⟩
  | cons p ps ih =>
    intro seen
    have hcons : profilesFault? seen (p :: ps) = none ↔
        p.fault? seen = none ∧ profilesFault? (p.id :: seen) ps = none := by
      rw [profilesFault?]
      split
      · next e he => simp [he]
      · next he => simp [he]
    rw [hcons, Profile.fault?_eq_none_iff, ih, List.map_cons, List.nodup_cons, List.forall_mem_cons,
      List.forall_mem_cons, List.mem_map]
    constructor
    · rintro ⟨⟨hp, hseen⟩, hps, hdistinct, hnew⟩
      refine ⟨⟨hp, hps⟩, ⟨?_, hdistinct⟩, hseen, fun q hq hmem => hnew q hq (List.mem_cons_of_mem _ hmem)⟩
      rintro ⟨q, hq, heq⟩
      exact hnew q hq (heq ▸ List.mem_cons_self)
    · rintro ⟨⟨hp, hps⟩, ⟨hfirst, hdistinct⟩, hseen, hrest⟩
      refine ⟨⟨hp, hseen⟩, hps, hdistinct, fun q hq hmem => ?_⟩
      rcases List.mem_cons.mp hmem with heq | hmem
      · exact hfirst ⟨q, hq, heq⟩
      · exact hrest q hq hmem

namespace Config

theorem fault?_eq_none_iff {c : Config} : c.fault? = none ↔ c.Usable := by
  have hfault : c.fault? = none ↔
      zeroFault? c.pool.positive = none ∧ profilesFault? [] c.connections = none := by
    rw [fault?]
    split
    · next e he => simp [he]
    · next he => simp [he]
  rw [hfault, zeroFault?_eq_none_iff, profilesFault?_eq_none_iff, PoolConfig.positive,
    List.forall_mem_cons, List.forall_mem_cons, List.forall_mem_singleton]
  constructor
  · rintro ⟨⟨hidle, hsweep, hconnect⟩, hprofiles, hdistinct, -⟩
    exact ⟨hidle, hsweep, hconnect, hprofiles, hdistinct⟩
  · intro h
    exact ⟨⟨h.idleTtl, h.sweepInterval, h.connectTimeout⟩, h.profiles, h.distinct,
      fun _ _ => List.not_mem_nil⟩

/-- A configuration is accepted exactly if it can be used. -/
theorem check_eq_ok_iff {c : Config} : c.check = .ok () ↔ c.Usable := by
  rw [← fault?_eq_none_iff, check]
  split
  · next e he => simp [he]
  · next he => simp [he]

end Config
end Polyshell
