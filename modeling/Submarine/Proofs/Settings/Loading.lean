import Submarine.Proofs.Text.Numerals
import Submarine.Settings

namespace Submarine.Settings

open Text (Trims IsNumeral NumberFault)
open Time (nanosPerMilli nanosPerSecond)

/-- The variable is set to a numeral of the number, which fits into 64 bits; or it is not set, and
the number is the standard one. -/
def StandsFor (env : Environment) (v : Variable) (standard n : Nat) : Prop :=
  match env v with
  | none => n = standard
  | some value => ∃ core, Trims value.toList core ∧ IsNumeral core n ∧ n ≤ maxNumber

def StandsForProbe (env : Environment) (address : Net.SocketAddress) : Prop :=
  match env .probeAddr with
  | none => address = .v4 [0, 0, 0, 0] 8080
  | some value => ∃ core, Trims value.toList core ∧ Net.SocketAddress.parse? core = some address

def StandsForNamespace (env : Environment) (ns : Option String) : Prop :=
  ∀ value, ns = some value ↔
    env .watchNamespace = some value ∧ ∃ c ∈ value.toList, ¬ Text.isBlank c

/-- The environment allows for these values: it stands for them, and they are in range. The first
delay is in milliseconds and the longest in seconds. -/
structure Allows (env : Environment) (workers : Nat) (probe : Net.SocketAddress) (base max : Nat) :
    Prop where
  standsForWorkers : StandsFor env .workerCount 2 workers
  one_le_workers : 1 ≤ workers
  standsForProbe : StandsForProbe env probe
  standsForBase : StandsFor env .queueBaseDelayMs 5 base
  standsForMax : StandsFor env .queueMaxDelaySecs 1000 max
  one_le_base : 1 ≤ base
  base_le_max : base ≤ max * 1000

structure Follows (s : Settings) (env : Environment) : Prop where
  ns : StandsForNamespace env s.ns
  allows : ∃ base max, Allows env s.workers s.probeAddress base max ∧
    s.baseDelay = base * nanosPerMilli ∧ s.maxDelay = max * nanosPerSecond

inductive Check where
  | workerSyntax
  | workerCount
  | address
  | baseSyntax
  | maxSyntax
  | zeroBase
  | baseAboveMax
deriving DecidableEq

def Check.inOrder : List Check :=
  [workerSyntax, workerCount, address, baseSyntax, maxSyntax, zeroBase, baseAboveMax]

def Misreads (env : Environment) (v : Variable) (f : Fault) : Prop :=
  ∃ value core fault, env v = some value ∧ Trims value.toList core ∧
    fault.Explains maxNumber core ∧ f = .number v value fault

inductive Offends (env : Environment) : Check → Fault → Prop where
  | workerSyntax {f : Fault} (misreads : Misreads env .workerCount f) : Offends env .workerSyntax f
  | workerCount (zero : StandsFor env .workerCount 2 0) : Offends env .workerCount .noWorkers
  | address {value : String} (set : env .probeAddr = some value)
      (none : ∀ core, Trims value.toList core → Net.SocketAddress.parse? core = none) :
      Offends env .address (.address value)
  | baseSyntax {f : Fault} (misreads : Misreads env .queueBaseDelayMs f) : Offends env .baseSyntax f
  | maxSyntax {f : Fault} (misreads : Misreads env .queueMaxDelaySecs f) : Offends env .maxSyntax f
  | zeroBase (zero : StandsFor env .queueBaseDelayMs 5 0) : Offends env .zeroBase .noBaseDelay
  | baseAboveMax {base max : Nat} (hbase : StandsFor env .queueBaseDelayMs 5 base)
      (hmax : StandsFor env .queueMaxDelaySecs 1000 max) (above : max * 1000 < base) :
      Offends env .baseAboveMax (.baseAboveMax base max)

def Passes (env : Environment) (check : Check) : Prop := ∀ f, ¬ Offends env check f

/-- The fault tells what the first check finds wrong that finds anything. -/
def FirstOffence (env : Environment) (f : Fault) : Prop :=
  ∃ before check after, Check.inOrder = before ++ check :: after ∧
    (∀ earlier ∈ before, Passes env earlier) ∧ Offends env check f

variable {env : Environment} {v : Variable} {s : Settings} {f : Fault}

theorem number?_cases (env : Environment) (v : Variable) :
    (∃ r, number? env v = .ok r ∧ ∀ standard, StandsFor env v standard (r.getD standard)) ∨
      ∃ f, number? env v = .error f ∧ Misreads env v f := by
  unfold number? StandsFor Misreads
  cases hset : env v with
  | none => exact .inl ⟨none, rfl, fun _ ↦ rfl⟩
  | some value =>
    have htrims := Text.trims_trim value.toList
    dsimp only
    cases hread : Text.unsigned? maxNumber (Text.trim value.toList) with
    | ok n => exact .inl ⟨some n, rfl, fun _ ↦ ⟨_, htrims, Text.unsigned?_eq_ok_iff.1 hread⟩⟩
    | error fault =>
      exact .inr ⟨_, rfl, value, _, fault, rfl, htrims, Text.unsigned?_eq_error_iff.1 hread, rfl⟩

theorem address?_cases (env : Environment) :
    (∃ r, address? env = .ok r ∧ StandsForProbe env (r.getD (.v4 [0, 0, 0, 0] 8080))) ∨
      ∃ f, address? env = .error f ∧ Offends env .address f := by
  unfold address? StandsForProbe
  cases hset : env .probeAddr with
  | none => exact .inl ⟨none, rfl, rfl⟩
  | some value =>
    have htrims := Text.trims_trim value.toList
    dsimp only
    cases hread : Net.SocketAddress.parse? (Text.trim value.toList) with
    | some a => exact .inl ⟨some a, rfl, _, htrims, hread⟩
    | none =>
      refine .inr ⟨_, rfl, .address hset fun core hcore ↦ ?_⟩
      rw [← hcore.trim_eq, hread]

theorem namespace?_spec (env : Environment) : StandsForNamespace env (namespace? env) := by
  intro value
  rw [namespace?, Option.filter_eq_some_iff]
  simp [Text.trim_eq_nil_iff]

/-- The checks one after another, with the delays in milliseconds and in seconds. -/
theorem load_eq (env : Environment) :
    load env = match number? env .workerCount with
      | .error f => .error f
      | .ok workers =>
        if workers.getD 2 = 0 then .error .noWorkers
        else match address? env with
          | .error f => .error f
          | .ok probe =>
            match number? env .queueBaseDelayMs with
            | .error f => .error f
            | .ok base =>
              match number? env .queueMaxDelaySecs with
              | .error f => .error f
              | .ok max =>
                if base.getD 5 = 0 then .error .noBaseDelay
                else if max.getD 1000 * 1000 < base.getD 5 then
                  .error (.baseAboveMax (base.getD 5) (max.getD 1000))
                else .ok {
                  ns := namespace? env
                  workers := workers.getD 2
                  probeAddress := probe.getD (.v4 [0, 0, 0, 0] 8080)
                  baseDelay := base.getD 5 * nanosPerMilli
                  maxDelay := max.getD 1000 * nanosPerSecond } := by
  unfold load
  cases number? env .workerCount with
  | error f => rfl
  | ok workers =>
    dsimp only [bind, Except.bind]
    split
    · rfl
    · cases address? env with
      | error f => rfl
      | ok probe =>
        cases number? env .queueBaseDelayMs with
        | error f => rfl
        | ok base =>
          cases number? env .queueMaxDelaySecs with
          | error f => rfl
          | ok max =>
            dsimp only [bind, Except.bind, pure, Except.pure]
            rw [Option.getD_map, Option.getD_map]
            generalize base.getD 5 = first, max.getD 1000 = longest
            have hzero : first * nanosPerMilli = 0 ↔ first = 0 := by
              rw [Nat.mul_eq_zero]
              exact or_iff_left (by decide)
            have habove : longest * nanosPerSecond < first * nanosPerMilli ↔
                longest * 1000 < first := by
              unfold nanosPerSecond nanosPerMilli
              omega
            simp only [hzero, habove, Nat.mul_div_cancel _ (show 0 < nanosPerMilli by decide),
              Nat.mul_div_cancel _ (show 0 < nanosPerSecond by decide)]
            split
            · rfl
            · split <;> rfl

section Standing

variable {standard m n : Nat} {a b : Net.SocketAddress} {ns ns' : Option String}

theorem StandsFor.unique (hm : StandsFor env v standard m) (hn : StandsFor env v standard n) :
    m = n := by
  unfold StandsFor at hm hn
  split at hm
  · next hset =>
    rw [hset] at hn
    exact hm.trans hn.symm
  · next value hset =>
    rw [hset] at hn
    obtain ⟨core, hcore, hm, -⟩ := hm
    obtain ⟨core', hcore', hn, -⟩ := hn
    obtain rfl := hcore.trim_eq.symm.trans hcore'.trim_eq
    exact hm.unique hn

theorem StandsFor.not_misreads (h : StandsFor env v standard n) : ¬ Misreads env v f := by
  rintro ⟨value, core, fault, hset, hcore, hfault, -⟩
  rw [StandsFor, hset] at h
  obtain ⟨core', hcore', hn⟩ := h
  obtain rfl := hcore.trim_eq.symm.trans hcore'.trim_eq
  have hread := Text.unsigned?_eq_error_iff.2 hfault
  rw [Text.unsigned?_eq_ok_iff.2 hn] at hread
  contradiction

theorem StandsForProbe.unique (ha : StandsForProbe env a) (hb : StandsForProbe env b) : a = b := by
  unfold StandsForProbe at ha hb
  split at ha
  · next hset =>
    rw [hset] at hb
    exact ha.trans hb.symm
  · next value hset =>
    rw [hset] at hb
    obtain ⟨core, hcore, ha⟩ := ha
    obtain ⟨core', hcore', hb⟩ := hb
    obtain rfl := hcore.trim_eq.symm.trans hcore'.trim_eq
    exact Option.some.inj (ha.symm.trans hb)

theorem StandsForNamespace.unique (h : StandsForNamespace env ns)
    (h' : StandsForNamespace env ns') : ns = ns' :=
  Option.ext fun value ↦ (h value).trans (h' value).symm

end Standing

section Passing

variable {n base max : Nat} {a : Net.SocketAddress}

theorem passes_workerSyntax (h : StandsFor env .workerCount 2 n) : Passes env .workerSyntax := by
  intro f hoffends
  cases hoffends with
  | workerSyntax misreads => exact h.not_misreads misreads

theorem passes_workerCount (h : StandsFor env .workerCount 2 n) (hn : n ≠ 0) :
    Passes env .workerCount := by
  intro f hoffends
  cases hoffends with
  | workerCount zero => exact hn (h.unique zero)

theorem passes_address (h : StandsForProbe env a) : Passes env .address := by
  intro f hoffends
  cases hoffends with
  | address set none =>
    rw [StandsForProbe, set] at h
    obtain ⟨core, hcore, ha⟩ := h
    rw [none core hcore] at ha
    contradiction

theorem passes_baseSyntax (h : StandsFor env .queueBaseDelayMs 5 n) : Passes env .baseSyntax := by
  intro f hoffends
  cases hoffends with
  | baseSyntax misreads => exact h.not_misreads misreads

theorem passes_maxSyntax (h : StandsFor env .queueMaxDelaySecs 1000 n) : Passes env .maxSyntax := by
  intro f hoffends
  cases hoffends with
  | maxSyntax misreads => exact h.not_misreads misreads

theorem passes_zeroBase (h : StandsFor env .queueBaseDelayMs 5 n) (hn : n ≠ 0) :
    Passes env .zeroBase := by
  intro f hoffends
  cases hoffends with
  | zeroBase zero => exact hn (h.unique zero)

theorem passes_baseAboveMax (hbase : StandsFor env .queueBaseDelayMs 5 base)
    (hmax : StandsFor env .queueMaxDelaySecs 1000 max) (hle : base ≤ max * 1000) :
    Passes env .baseAboveMax := by
  intro f hoffends
  cases hoffends with
  | baseAboveMax hbase' hmax' above =>
    obtain rfl := hbase.unique hbase'
    obtain rfl := hmax.unique hmax'
    exact absurd above (Nat.not_lt.2 hle)

theorem Allows.passes {workers : Nat} (h : Allows env workers a base max) (check : Check) :
    Passes env check := by
  cases check with
  | workerSyntax => exact passes_workerSyntax h.standsForWorkers
  | workerCount =>
    exact passes_workerCount h.standsForWorkers (Nat.ne_of_gt h.one_le_workers)
  | address => exact passes_address h.standsForProbe
  | baseSyntax => exact passes_baseSyntax h.standsForBase
  | maxSyntax => exact passes_maxSyntax h.standsForMax
  | zeroBase => exact passes_zeroBase h.standsForBase (Nat.ne_of_gt h.one_le_base)
  | baseAboveMax => exact passes_baseAboveMax h.standsForBase h.standsForMax h.base_le_max

end Passing

/-- The checks are gone through as they are made. Those that have been passed are kept in mind. -/
theorem load_cases (env : Environment) :
    (∃ s, load env = .ok s ∧ s.Follows env) ∨ ∃ f, load env = .error f ∧ FirstOffence env f := by
  rw [load_eq]
  rcases (number?_cases env .workerCount).symm with ⟨f, hread, hf⟩ | ⟨workers, hread, hworkers⟩ <;>
    rw [hread] <;> dsimp only
  · exact .inr ⟨f, rfl, [], .workerSyntax, _, rfl, nofun, .workerSyntax hf⟩
  have hworkerSyntax : Passes env .workerSyntax := passes_workerSyntax (hworkers 2)
  split
  · next hzero =>
    refine .inr ⟨_, rfl, [.workerSyntax], .workerCount, _, rfl, by simp [hworkerSyntax], ?_⟩
    exact .workerCount (hzero ▸ hworkers 2)
  next hpos =>
  have hworkerCount : Passes env .workerCount := passes_workerCount (hworkers 2) hpos
  rcases (address?_cases env).symm with ⟨f, hread, hf⟩ | ⟨probe, hread, hprobe⟩ <;>
    rw [hread] <;> dsimp only
  · exact .inr ⟨f, rfl, [.workerSyntax, .workerCount], .address, _, rfl,
      by simp [hworkerSyntax, hworkerCount], hf⟩
  have haddress : Passes env .address := passes_address hprobe
  rcases (number?_cases env .queueBaseDelayMs).symm with
    ⟨f, hread, hf⟩ | ⟨base, hread, hbase⟩ <;> rw [hread] <;> dsimp only
  · exact .inr ⟨f, rfl, [.workerSyntax, .workerCount, .address], .baseSyntax, _, rfl,
      by simp [hworkerSyntax, hworkerCount, haddress], .baseSyntax hf⟩
  have hbaseSyntax : Passes env .baseSyntax := passes_baseSyntax (hbase 5)
  rcases (number?_cases env .queueMaxDelaySecs).symm with
    ⟨f, hread, hf⟩ | ⟨max, hread, hmax⟩ <;> rw [hread] <;> dsimp only
  · exact .inr ⟨f, rfl, [.workerSyntax, .workerCount, .address, .baseSyntax], .maxSyntax, _, rfl,
      by simp [hworkerSyntax, hworkerCount, haddress, hbaseSyntax], .maxSyntax hf⟩
  have hmaxSyntax : Passes env .maxSyntax := passes_maxSyntax (hmax 1000)
  split
  · next hzero =>
    refine .inr ⟨_, rfl, [.workerSyntax, .workerCount, .address, .baseSyntax, .maxSyntax],
      .zeroBase, _, rfl,
      by simp [hworkerSyntax, hworkerCount, haddress, hbaseSyntax, hmaxSyntax], ?_⟩
    exact .zeroBase (hzero ▸ hbase 5)
  next hfirst =>
  have hzeroBase : Passes env .zeroBase := passes_zeroBase (hbase 5) hfirst
  split
  · next habove =>
    refine .inr ⟨_, rfl, [.workerSyntax, .workerCount, .address, .baseSyntax, .maxSyntax,
      .zeroBase], .baseAboveMax, _, rfl,
      by simp [hworkerSyntax, hworkerCount, haddress, hbaseSyntax, hmaxSyntax, hzeroBase], ?_⟩
    exact .baseAboveMax (hbase 5) (hmax 1000) habove
  · next hle =>
    refine .inl ⟨_, rfl, namespace?_spec env, base.getD 5, max.getD 1000, ?_, rfl, rfl⟩
    exact ⟨hworkers 2, Nat.pos_of_ne_zero hpos, hprobe, hbase 5, hmax 1000,
      Nat.pos_of_ne_zero hfirst, Nat.not_lt.1 hle⟩

theorem Follows.unique {s' : Settings} (h : s.Follows env) (h' : s'.Follows env) : s = s' := by
  obtain ⟨base, max, hallows, hbase, hmax⟩ := h.allows
  obtain ⟨base', max', hallows', hbase', hmax'⟩ := h'.allows
  have hns : s.ns = s'.ns := h.ns.unique h'.ns
  have hworkers : s.workers = s'.workers :=
    hallows.standsForWorkers.unique hallows'.standsForWorkers
  have hprobe : s.probeAddress = s'.probeAddress :=
    hallows.standsForProbe.unique hallows'.standsForProbe
  obtain rfl := hallows.standsForBase.unique hallows'.standsForBase
  obtain rfl := hallows.standsForMax.unique hallows'.standsForMax
  have hbaseDelay : s.baseDelay = s'.baseDelay := hbase.trans hbase'.symm
  have hmaxDelay : s.maxDelay = s'.maxDelay := hmax.trans hmax'.symm
  cases s
  cases s'
  simp_all

theorem FirstOffence.not_allows {workers base max : Nat} {a : Net.SocketAddress}
    (h : FirstOffence env f) : ¬ Allows env workers a base max := by
  obtain ⟨-, check, -, -, -, hoffends⟩ := h
  exact fun hallows ↦ hallows.passes check f hoffends

/-- Loading fails for nothing else. -/
theorem load_of_allows {workers base max : Nat} {a : Net.SocketAddress}
    (h : Allows env workers a base max) : ∃ s, load env = .ok s ∧ s.Follows env := by
  rcases load_cases env with hok | ⟨f, -, hf⟩
  · exact hok
  · exact absurd h hf.not_allows

theorem follows_of_load (h : load env = .ok s) : s.Follows env := by
  rcases load_cases env with ⟨s', hok, hfollows⟩ | ⟨f, hf, -⟩
  · obtain rfl := Except.ok.inj (h.symm.trans hok)
    exact hfollows
  · rw [h] at hf
    contradiction

theorem firstOffence_of_load (h : load env = .error f) : FirstOffence env f := by
  rcases load_cases env with ⟨s, hok, -⟩ | ⟨f', hf, hfirst⟩
  · rw [h] at hok
    contradiction
  · obtain rfl := Except.error.inj (h.symm.trans hf)
    exact hfirst

/-- Settings are loaded just where the variables stand for numbers and an address in range. They are
the only ones that follow the environment then, and otherwise the first check that fails is told, as
an invalid setting. -/
theorem loads_or_tells_first_offence (env : Environment) :
    ((∃ s, load env = .ok s) ↔ ∃ workers probe base max, Allows env workers probe base max) ∧
    (∀ s, load env = .ok s ↔ s.Follows env) ∧
    ∀ f, load env = .error f → f.toFailure = .invalidSettings f.message ∧ FirstOffence env f := by
  refine ⟨⟨?_, ?_⟩, fun s ↦ ⟨follows_of_load, ?_⟩, fun f hf ↦ ⟨rfl, firstOffence_of_load hf⟩⟩
  · rintro ⟨s, hload⟩
    obtain ⟨base, max, hallows, -, -⟩ := (follows_of_load hload).allows
    exact ⟨_, _, base, max, hallows⟩
  · rintro ⟨workers, probe, base, max, hallows⟩
    obtain ⟨s, hload, -⟩ := load_of_allows hallows
    exact ⟨s, hload⟩
  · intro hfollows
    obtain ⟨base, max, hallows, -, -⟩ := hfollows.allows
    obtain ⟨s', hload, hfollows'⟩ := load_of_allows hallows
    rw [hload, hfollows'.unique hfollows]

def flawed : Environment
  | .workerCount => some "\u00a0+00\n"
  | .probeAddr => some "localhost:8080"
  | .queueBaseDelayMs => some "5ms"
  | _ => none

/-- Three checks fail, and the worker count is the first of them. -/
theorem loads_or_tells_first_offence_of_flawed :
    load flawed = .error .noWorkers ∧
      Fault.noWorkers.toFailure = .invalidSettings "WORKER_COUNT must be at least 1" ∧
      FirstOffence flawed .noWorkers := by
  have hload : load flawed = .error .noWorkers := by rfl
  exact ⟨hload, (loads_or_tells_first_offence flawed).2.2 _ hload⟩

end Submarine.Settings
