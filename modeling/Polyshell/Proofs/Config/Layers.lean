/-
  The sources of a configuration, one above the other.

  1. **Settings** — a configuration is a value for each `Setting`, and a list of profiles
     (`Config.ext_of_value`).

  2. **Layers** — a source gives a value for some settings and none for others.  The file, the
     environment and the arguments are one layer each, and say nothing about one another.  Under several
     layers a setting has the value that the highest one gives that gives any (`settingUnder`).

  3. **The program's way** — it starts from the defaults and changes them.  Reading a file puts its layer
     above the defaults (`ofToml_eq`), the variables put theirs above that (`override_ofLayers`), and
     the arguments theirs above all (`applyTo_ofLayers`).
-/
import Mathlib.Data.List.Forall2
import Polyshell.CommandLine.Invocation
import Polyshell.Proofs.Except

namespace Polyshell

/-! ## Settings -/

/-- A setting of the shell, the profiles apart. -/
inductive Setting where
  | idleTtl
  | sweepInterval
  | connectTimeout
  | retryAttempts
  | tableStyle
  | level
  | timestamps
deriving DecidableEq, Repr

/-- What a setting can be. -/
abbrev Setting.Value : Setting → Type
  | .tableStyle => Sql.TableStyle
  | .level => LogLevel
  | .timestamps => Bool
  | _ => Nat

/-- What a setting is where nothing is said. -/
def Setting.default : (x : Setting) → x.Value
  | .idleTtl => 600
  | .sweepInterval => 60
  | .connectTimeout => 10
  | .retryAttempts => 3
  | .tableStyle => .ascii
  | .level => .warn
  | .timestamps => true

/-- What a setting is in a configuration. -/
def Config.value (c : Config) : (x : Setting) → x.Value
  | .idleTtl => c.pool.idleTtl
  | .sweepInterval => c.pool.sweepInterval
  | .connectTimeout => c.pool.connectTimeout
  | .retryAttempts => c.pool.retryAttempts
  | .tableStyle => c.tableStyle
  | .level => c.logging.level
  | .timestamps => c.logging.timestamps

theorem Config.ext_of_value {c c' : Config} (hvalue : ∀ x, c.value x = c'.value x)
    (hconnections : c.connections = c'.connections) : c = c' := by
  obtain ⟨⟨idle, sweep, connect, attempts⟩, style, ⟨level, timestamps⟩, connections⟩ := c
  obtain rfl : idle = _ := hvalue .idleTtl
  obtain rfl : sweep = _ := hvalue .sweepInterval
  obtain rfl : connect = _ := hvalue .connectTimeout
  obtain rfl : attempts = _ := hvalue .retryAttempts
  obtain rfl : style = _ := hvalue .tableStyle
  obtain rfl : level = _ := hvalue .level
  obtain rfl : timestamps = _ := hvalue .timestamps
  obtain rfl : connections = _ := hconnections
  rfl

/-! ## Layers -/

/-- What one source gives for each setting. -/
abbrev Layer := (x : Setting) → Option x.Value

namespace Layer

/-- A field of a group of settings in a file. -/
def field {α : Type} (doc : Toml.Members) (group : String) (names : List String) (key : String)
    (read : Toml → Option α) : Option α :=
  (Toml.find? doc group).bind fun g =>
    (g.fields? names).bind fun ms => (Toml.find? ms key).bind read

/-- What a file gives. -/
def ofFile (doc : Toml.Members) : Layer
  | .idleTtl =>
    field doc "pool" Config.poolFields "idle_ttl" (Toml.natural? Config.maxSeconds)
  | .sweepInterval =>
    field doc "pool" Config.poolFields "sweep_interval" (Toml.natural? Config.maxSeconds)
  | .connectTimeout =>
    field doc "pool" Config.poolFields "connect_timeout" (Toml.natural? Config.maxSeconds)
  | .retryAttempts =>
    field doc "pool" Config.poolFields "retry_attempts" (Toml.natural? Config.maxAttempts)
  | .tableStyle =>
    field doc "display" Config.displayFields "table_style" fun v => v.name?.bind Sql.TableStyle.ofName?
  | .level => field doc "logging" Config.loggingFields "level" fun v => v.name?.bind LogLevel.ofName?
  | .timestamps => field doc "logging" Config.loggingFields "timestamps" Toml.boolean?

/-- A number in a variable. -/
def number? (hi : Nat) (value : String) : Option Nat :=
  Decimal.readNat? hi (Text.trim value.toList)

/-- The variable that gives a setting, behind the stem of all names, and how it is read. -/
def named? : (x : Setting) → Option (String × (String → Option x.Value))
  | .idleTtl => some ("POOL_IDLE_TTL", number? Config.maxSeconds)
  | .sweepInterval => some ("POOL_SWEEP_INTERVAL", number? Config.maxSeconds)
  | .connectTimeout => some ("POOL_CONNECT_TIMEOUT", number? Config.maxSeconds)
  | .retryAttempts => some ("POOL_RETRY_ATTEMPTS", number? Config.maxAttempts)
  | .level => some ("LOG_LEVEL", LogLevel.parse?)
  | .tableStyle => none
  | .timestamps => none

/-- What the environment gives. -/
def ofEnvironment (env : Environment) : Layer := fun x =>
  (named? x).bind fun v => (env (Config.variableStem ++ v.1)).bind v.2

/-- What the arguments give.  Of the switches for the level the most talkative counts. -/
def ofArguments (a : CommandLine.Arguments) : Layer
  | .connectTimeout => a.timeout
  | .level =>
    if a.veryVerbose then some .trace else if a.verbose then some .debug
    else if a.quiet then some .error else none
  | _ => none

end Layer

/-- What a setting is under layers, the highest first: what the first of them gives that gives
    anything, or the default. -/
def settingUnder (layers : List Layer) (x : Setting) : x.Value :=
  (layers.findSome? fun l => l x).getD x.default

theorem settingUnder_cons (l : Layer) (layers : List Layer) (x : Setting) :
    settingUnder (l :: layers) x = (l x).getD (settingUnder layers x) := by
  rw [settingUnder, List.findSome?_cons]
  cases l x <;> rfl

/-- The configuration that layers make, with some profiles. -/
def Config.ofLayers (layers : List Layer) (connections : List Profile) : Config where
  pool :=
    ⟨settingUnder layers .idleTtl, settingUnder layers .sweepInterval,
      settingUnder layers .connectTimeout, settingUnder layers .retryAttempts⟩
  tableStyle := settingUnder layers .tableStyle
  logging := ⟨settingUnder layers .level, settingUnder layers .timestamps⟩
  connections := connections

theorem Config.value_ofLayers (layers : List Layer) (connections : List Profile) (x : Setting) :
    (ofLayers layers connections).value x = settingUnder layers x := by
  cases x <;> rfl

/-- A configuration whose settings are those under layers, each replaced by what one more layer gives,
    is that under the layer too. -/
theorem Config.eq_ofLayers_cons {l : Layer} {layers : List Layer} {ps : List Profile} {c : Config}
    (hvalue : ∀ x, c.value x = (l x).getD ((ofLayers layers ps).value x)) :
    c = ofLayers (l :: layers) c.connections := by
  refine ext_of_value (fun x => ?_) rfl
  rw [hvalue, value_ofLayers, value_ofLayers, settingUnder_cons]

/-! ## Files -/

namespace Config

theorem setting_eq {α : Type} {key : String} {read : Toml → Option α} {d x : α} {ms : Toml.Members}
    (h : setting key read d ms = .ok x) : x = ((Toml.find? ms key).bind read).getD d := by
  obtain ⟨given, hgiven, h⟩ := exists_of_bind h
  obtain rfl : given.getD d = x := Except.ok.inj h
  rw [optional?] at hgiven
  split at hgiven
  · next hnone =>
    cases hgiven
    rw [hnone]
    rfl
  · next v hv =>
    split at hgiven
    · next y hy =>
      cases hgiven
      rw [hv, Option.bind_some, hy]
    · cases hgiven

/-- What is read of a group: it is missing, or its fields are found. -/
theorem group_cases {α : Type} {key : String} {names : List String}
    {read : Toml.Members → Except ConfigError α} {d x : α} {ms : Toml.Members}
    (h : group key names read d ms = .ok x) :
    (x = d ∧ ∀ {β : Type} (k : String) (f : Toml → Option β), Layer.field ms key names k f = none) ∨
      ∃ g, read g = .ok x ∧ ∀ {β : Type} (k : String) (f : Toml → Option β),
        Layer.field ms key names k f = (Toml.find? g k).bind f := by
  rw [group] at h
  split at h
  · next hnone =>
    cases h
    refine Or.inl ⟨rfl, fun k f => ?_⟩
    rw [Layer.field, hnone]
    rfl
  · next v hv =>
    obtain ⟨g, hg, h⟩ := exists_of_bind h
    refine Or.inr ⟨g, h, fun k f => ?_⟩
    rw [fieldsOf] at hg
    split at hg
    · next ms' hfields =>
      cases hg
      rw [Layer.field, hv, Option.bind_some, hfields]
      rfl
    · cases hg

theorem readPool_eq {ms : Toml.Members} {p : PoolConfig}
    (h : group "pool" poolFields readPool .default ms = .ok p) :
    p.idleTtl = (Layer.ofFile ms .idleTtl).getD (Setting.default .idleTtl) ∧
      p.sweepInterval = (Layer.ofFile ms .sweepInterval).getD (Setting.default .sweepInterval) ∧
      p.connectTimeout = (Layer.ofFile ms .connectTimeout).getD (Setting.default .connectTimeout) ∧
      p.retryAttempts = (Layer.ofFile ms .retryAttempts).getD (Setting.default .retryAttempts) := by
  simp only [Layer.ofFile]
  rcases group_cases h with ⟨rfl, hnone⟩ | ⟨g, hread, hfield⟩
  · simp only [hnone]
    exact ⟨rfl, rfl, rfl, rfl⟩
  · simp only [hfield]
    obtain ⟨idle, hidle, hread⟩ := exists_of_bind hread
    obtain ⟨sweep, hsweep, hread⟩ := exists_of_bind hread
    obtain ⟨connect, hconnect, hread⟩ := exists_of_bind hread
    obtain ⟨attempts, hattempts, hread⟩ := exists_of_bind hread
    cases hread
    exact ⟨setting_eq hidle, setting_eq hsweep, setting_eq hconnect, setting_eq hattempts⟩

theorem readDisplay_eq {ms : Toml.Members} {style : Sql.TableStyle}
    (h : group "display" displayFields readDisplay .ascii ms = .ok style) :
    style = (Layer.ofFile ms .tableStyle).getD (Setting.default .tableStyle) := by
  simp only [Layer.ofFile]
  rcases group_cases h with ⟨rfl, hnone⟩ | ⟨g, hread, hfield⟩
  · simp only [hnone]
    rfl
  · simp only [hfield]
    exact setting_eq hread

theorem readLogging_eq {ms : Toml.Members} {l : LoggingConfig}
    (h : group "logging" loggingFields readLogging .default ms = .ok l) :
    l.level = (Layer.ofFile ms .level).getD (Setting.default .level) ∧
      l.timestamps = (Layer.ofFile ms .timestamps).getD (Setting.default .timestamps) := by
  simp only [Layer.ofFile]
  rcases group_cases h with ⟨rfl, hnone⟩ | ⟨g, hread, hfield⟩
  · simp only [hnone]
    exact ⟨rfl, rfl⟩
  · simp only [hfield]
    obtain ⟨level, hlevel, hread⟩ := exists_of_bind hread
    obtain ⟨timestamps, htimestamps, hread⟩ := exists_of_bind hread
    cases hread
    exact ⟨setting_eq hlevel, setting_eq htimestamps⟩

/-- A file's configuration is that under its layer. -/
theorem ofToml_eq {doc : Toml.Members} {c : Config} (h : ofToml doc = .ok c) :
    ∃ ps, readProfiles doc = .ok ps ∧ c = ofLayers [Layer.ofFile doc] ps := by
  obtain ⟨pool, hpool, h⟩ := exists_of_bind h
  obtain ⟨style, hstyle, h⟩ := exists_of_bind h
  obtain ⟨logging, hlogging, h⟩ := exists_of_bind h
  obtain ⟨ps, hps, h⟩ := exists_of_bind h
  cases h
  refine ⟨ps, hps, ext_of_value (fun x => ?_) rfl⟩
  rw [value_ofLayers, settingUnder_cons]
  cases x with
  | idleTtl => exact (readPool_eq hpool).1
  | sweepInterval => exact (readPool_eq hpool).2.1
  | connectTimeout => exact (readPool_eq hpool).2.2.1
  | retryAttempts => exact (readPool_eq hpool).2.2.2
  | tableStyle => exact readDisplay_eq hstyle
  | level => exact (readLogging_eq hlogging).1
  | timestamps => exact (readLogging_eq hlogging).2

/-- The file that is asked for, or else the user's own, holds a document.  Where there is none, the
    document is empty. -/
inductive Holds (s : Surroundings) : Option String → Toml.Members → Prop
  | named {path text : String} {doc : Toml.Members} (h : s.files path = .text text)
      (hdoc : Toml.read text.toList = .ok doc) : Holds s (some path) doc
  | own {text : String} {doc : Toml.Members} (h : s.files (defaultPath s.home) = .text text)
      (hdoc : Toml.read text.toList = .ok doc) : Holds s none doc
  | missing (h : s.files (defaultPath s.home) = .missing) : Holds s none []

theorem onDisk_of_holds {s : Surroundings} {path : Option String} {doc : Toml.Members} {c : Config}
    (hholds : Holds s path doc) (hdoc : ofToml doc = .ok c) : onDisk s path = .ok c := by
  have hfile : ∀ {path text}, s.files path = .text text → Toml.read text.toList = .ok doc →
      ofFile s.files path = .ok c := by
    intro path text htext hread
    rw [ofFile, htext]
    show (ofText text).mapError ShellError.config = .ok c
    rw [ofText, hread]
    show (ofToml doc).mapError ShellError.config = .ok c
    rw [hdoc]
    rfl
  cases hholds with
  | named htext hread => exact hfile htext hread
  | own htext hread =>
    rw [onDisk, htext]
    exact hfile htext hread
  | missing hmissing =>
    have hempty : ofToml [] = .ok default := rfl
    rw [onDisk, hmissing]
    exact congrArg Except.ok (Except.ok.inj (hempty.symm.trans hdoc))

/-! ## Variables -/

/-- Every variable that is set can be read. -/
def Legible (env : Environment) : Prop :=
  ∀ x, ((Layer.named? x).all fun v =>
    (env (variableStem ++ v.1)).all fun text => (v.2 text).isSome) = true

/-- What a smaller bound admits every larger one admits. -/
theorem readNat?_of_le {lo hi n : Nat} {s : List Char} (hle : lo ≤ hi)
    (h : Decimal.readNat? lo s = some n) : Decimal.readNat? hi s = some n ∧ n ≤ lo := by
  obtain ⟨m, hm, rfl⟩ := Option.map_eq_some_iff.mp h
  rw [Decimal.readNat?]
  unfold Decimal.read? at hm ⊢
  split at hm
  next negative body _ =>
  dsimp only at hm ⊢
  generalize (if negative then -(Decimal.value body : Int) else Decimal.value body) = v at hm ⊢
  split at hm
  · next hdigits =>
    split at hm
    · next hrange =>
      obtain rfl := Option.some.inj hm
      simp only [Bool.and_eq_true, decide_eq_true_eq] at hrange
      have hle' : v ≤ hi := by omega
      rw [if_pos hdigits, if_pos (by simp [hrange.1, hle'])]
      exact ⟨rfl, by omega⟩
    · cases hm
  · cases hm

section Variables

variable {env : Environment}

/-- A variable that can be read is not set, or gives a value. -/
theorem Legible.cases (henv : Legible env) {x : Setting} {name : String} {read : String → Option x.Value}
    (hx : Layer.named? x = some (name, read)) :
    (env (variableStem ++ name) = none ∧ Layer.ofEnvironment env x = none) ∨
      ∃ text v, env (variableStem ++ name) = some text ∧ read text = some v ∧
        Layer.ofEnvironment env x = some v := by
  cases htext : env (variableStem ++ name) with
  | none =>
    refine Or.inl ⟨rfl, ?_⟩
    rw [Layer.ofEnvironment, hx, Option.bind_some, htext]
    rfl
  | some text =>
    have hread := henv x
    rw [hx, Option.all_some, htext, Option.all_some] at hread
    obtain ⟨v, hv⟩ := Option.isSome_iff_exists.mp hread
    refine Or.inr ⟨text, v, rfl, hv, ?_⟩
    rw [Layer.ofEnvironment, hx, Option.bind_some, htext]
    exact hv

/-- An override puts what the environment gives for one setting into a configuration. -/
def Puts (env : Environment) (x : Setting) (o : Override) : Prop :=
  ∀ c, ∃ c', o env c = .ok c' ∧ c'.connections = c.connections ∧
    c'.value x = (Layer.ofEnvironment env x).getD (c.value x) ∧ ∀ y, y ≠ x → c'.value y = c.value y

/-- An override that does nothing while its variable is not set, and else sets what it reads. -/
theorem Puts.of_variable (henv : Legible env) {x : Setting} {name : String}
    {read : String → Option x.Value} (hx : Layer.named? x = some (name, read)) {o : Override}
    (hunset : env (variableStem ++ name) = none → ∀ c, o env c = .ok c)
    (hset : ∀ text v, env (variableStem ++ name) = some text → read text = some v → ∀ c,
      ∃ c', o env c = .ok c' ∧ c'.connections = c.connections ∧ c'.value x = v ∧
        ∀ y, y ≠ x → c'.value y = c.value y) : Puts env x o := by
  intro c
  rcases henv.cases hx with ⟨htext, hgives⟩ | ⟨text, v, htext, hread, hgives⟩
  · rw [hgives]
    exact ⟨c, hunset htext c, rfl, rfl, fun _ _ => rfl⟩
  · rw [hgives]
    exact hset text v htext hread c

theorem numberIn_of_unset {name : String} (h : env (variableStem ++ name) = none) :
    numberIn env name = .ok none := by
  rw [numberIn, h]

theorem numberIn_of_set {name text : String} {n : Nat} (h : env (variableStem ++ name) = some text)
    (hn : Layer.number? maxSeconds text = some n) : numberIn env name = .ok (some n) := by
  rw [Layer.number?] at hn
  rw [numberIn, h]
  dsimp only
  rw [hn]

theorem overrideSeconds_of_unset {name : String} (put : Nat → PoolConfig → PoolConfig)
    (h : env (variableStem ++ name) = none) (c : Config) : overrideSeconds name put env c = .ok c := by
  rw [overrideSeconds, numberIn_of_unset h]
  rfl

theorem overrideSeconds_of_set {name text : String} {n : Nat} (put : Nat → PoolConfig → PoolConfig)
    (h : env (variableStem ++ name) = some text) (hn : Layer.number? maxSeconds text = some n)
    (c : Config) : overrideSeconds name put env c = .ok { c with pool := put n c.pool } := by
  rw [overrideSeconds, numberIn_of_set h hn]
  rfl

theorem puts_idleTtl (henv : Legible env) :
    Puts env .idleTtl (overrideSeconds "POOL_IDLE_TTL" fun n p => { p with idleTtl := n }) :=
  .of_variable henv rfl (overrideSeconds_of_unset _) fun _ _ htext hn c =>
    ⟨_, overrideSeconds_of_set _ htext hn c, rfl, rfl, fun y hy => by
      cases y <;> first | rfl | exact absurd rfl hy⟩

theorem puts_sweepInterval (henv : Legible env) : Puts env .sweepInterval
    (overrideSeconds "POOL_SWEEP_INTERVAL" fun n p => { p with sweepInterval := n }) :=
  .of_variable henv rfl (overrideSeconds_of_unset _) fun _ _ htext hn c =>
    ⟨_, overrideSeconds_of_set _ htext hn c, rfl, rfl, fun y hy => by
      cases y <;> first | rfl | exact absurd rfl hy⟩

theorem puts_connectTimeout (henv : Legible env) : Puts env .connectTimeout
    (overrideSeconds "POOL_CONNECT_TIMEOUT" fun n p => { p with connectTimeout := n }) :=
  .of_variable henv rfl (overrideSeconds_of_unset _) fun _ _ htext hn c =>
    ⟨_, overrideSeconds_of_set _ htext hn c, rfl, rfl, fun y hy => by
      cases y <;> first | rfl | exact absurd rfl hy⟩

/-- The number of attempts is read like one of seconds, and then has to be within its own bound. -/
theorem puts_retryAttempts (henv : Legible env) : Puts env .retryAttempts overrideAttempts := by
  refine .of_variable henv rfl (fun htext c => ?_) fun text n htext hn c => ?_
  · rw [overrideAttempts, numberIn_of_unset htext]
    rfl
  · obtain ⟨hread, hle⟩ := readNat?_of_le (show maxAttempts ≤ maxSeconds by decide) hn
    refine ⟨{ c with pool := { c.pool with retryAttempts := n } }, ?_, rfl, rfl, fun y hy => ?_⟩
    · rw [overrideAttempts, numberIn_of_set htext hread]
      exact if_pos hle
    · cases y <;> first | rfl | exact absurd rfl hy

theorem puts_level (henv : Legible env) : Puts env .level overrideLevel := by
  refine .of_variable henv rfl (fun htext c => ?_) fun text level htext hlevel c => ?_
  · rw [overrideLevel, htext]
  · refine ⟨{ c with logging := { c.logging with level := level } }, ?_, rfl, rfl, fun y hy => ?_⟩
    · rw [overrideLevel, htext]
      dsimp only
      rw [hlevel]
    · cases y <;> first | rfl | exact absurd rfl hy

/-- Overrides for different settings do not disturb one another. -/
theorem applyAll_eq {xs : List Setting} {os : List Override} (h : List.Forall₂ (Puts env) xs os) :
    xs.Nodup → ∀ c, ∃ c', applyAll env os c = (c', none) ∧ c'.connections = c.connections ∧
      (∀ x ∈ xs, c'.value x = (Layer.ofEnvironment env x).getD (c.value x)) ∧
      ∀ y, y ∉ xs → c'.value y = c.value y := by
  induction h with
  | nil =>
    intro _ c
    exact ⟨c, rfl, rfl, fun _ hx => absurd hx List.not_mem_nil, fun _ _ => rfl⟩
  | @cons x o xs os hputs _ ih =>
    intro hdistinct c
    obtain ⟨hx, hdistinct⟩ := List.nodup_cons.mp hdistinct
    obtain ⟨c₁, ho, hconnections₁, hvalue₁, hother₁⟩ := hputs c
    obtain ⟨c', hos, hconnections, hvalue, hother⟩ := ih hdistinct c₁
    refine ⟨c', ?_, hconnections.trans hconnections₁, fun y hy => ?_, fun y hy => ?_⟩
    · rw [applyAll, ho]
      exact hos
    · rcases List.mem_cons.mp hy with rfl | hy
      · rw [hother y hx, hvalue₁]
      · rw [hvalue y hy, hother₁ y fun heq => hx (heq ▸ hy)]
    · rw [List.mem_cons, not_or] at hy
      rw [hother y hy.2, hother₁ y hy.1]

/-- The environment is a layer above what was there. -/
theorem override_ofLayers (henv : Legible env) (layers : List Layer) (connections : List Profile) :
    (ofLayers layers connections).override env =
      (ofLayers (Layer.ofEnvironment env :: layers) connections, none) := by
  have hputs : List.Forall₂ (Puts env)
      [.idleTtl, .sweepInterval, .connectTimeout, .retryAttempts, .level] overrides :=
    .cons (puts_idleTtl henv) (.cons (puts_sweepInterval henv) (.cons (puts_connectTimeout henv)
      (.cons (puts_retryAttempts henv) (.cons (puts_level henv) .nil))))
  obtain ⟨c', happly, hconnections, hvalue, hother⟩ := applyAll_eq hputs (by decide)
    (ofLayers layers connections)
  have hc' : c' = ofLayers (Layer.ofEnvironment env :: layers) c'.connections := by
    refine @eq_ofLayers_cons _ layers connections _ fun x => ?_
    -- what no variable gives, the environment has no say in
    cases x with
    | tableStyle => exact hother .tableStyle (by decide)
    | timestamps => exact hother .timestamps (by decide)
    | _ => exact hvalue _ (by decide)
  rw [hconnections] at hc'
  rw [override, happly, hc']
  rfl

end Variables

end Config

/-! ## Arguments -/

namespace CommandLine

/-- The arguments are a layer above what was there, and their profile takes its place. -/
theorem applyTo_ofLayers {a : Arguments} {own : Option Profile} (hown : a.profile? = .ok own)
    (layers : List Layer) (connections : List Profile) :
    a.applyTo (Config.ofLayers layers connections) =
      .ok (Config.ofLayers (Layer.ofArguments a :: layers) (withProfile connections own)) := by
  have hlevel : ∀ configured,
      a.level configured = (Layer.ofArguments a .level).getD configured := by
    intro configured
    rw [Arguments.level, Layer.ofArguments]
    split
    · rfl
    · split
      · rfl
      · split <;> rfl
  rw [Arguments.applyTo, hown]
  refine congrArg Except.ok (@Config.eq_ofLayers_cons _ layers connections _ fun x => ?_)
  cases x with
  | level => exact hlevel _
  | _ => rfl

end CommandLine
end Polyshell
