import LemonModel.Base.Run
import LemonModel.Transport.Delivery

/-!
# Eviction from the settled memory

A settled map under any settle calls, sweeps and passing of time. Setting a present
`tid` again keeps its place in the map, so the first entry need not be the oldest.
-/

namespace LemonModel

open Text

/-- A settled map, the clock, and the tids of all settle calls, the last one first. -/
structure SettledMemory where
  map : Dict JSString SettledEntry
  now : Nat
  calls : List JSString
  deriving DecidableEq

inductive SettledCall where
  | settle (tid : JSString) (outcome : Outcome)
  | sweep
  | wait (ms : Nat)
  deriving DecidableEq

namespace SettledMemory

variable (o : ReliableOptions)

def start (now : Nat) : SettledMemory := ⟨.empty, now, []⟩

/-- The map before anything is evicted from it. -/
def written (m : SettledMemory) (tid : JSString) (outcome : Outcome) :
    Dict JSString SettledEntry :=
  m.map.set tid ⟨outcome, m.now + o.settledTtlMs⟩

def settle (m : SettledMemory) (tid : JSString) (outcome : Outcome) : SettledMemory :=
  { m with
    map := Transport.sweepSettledMapSize (m.written o tid outcome) o.settledMaxEntries m.now
    calls := tid :: m.calls }

def step (m : SettledMemory) : SettledCall → Option SettledMemory
  | .settle tid outcome => some (m.settle o tid outcome)
  | .sweep => some { m with map := Transport.sweepSettledMapTtl m.map m.now }
  | .wait ms => some { m with now := m.now + ms }

/-! ## What should be evicted -/

def Expired (now : Nat) (entry : SettledEntry) : Prop := entry.expiresAt ≤ now

instance (now : Nat) (entry : SettledEntry) : Decidable (Expired now entry) :=
  Nat.decLe _ _

/-- No other entry of the map was settled before. -/
def Oldest (map : Dict JSString SettledEntry) (calls : List JSString) (tid : JSString) : Prop :=
  ∀ k ∈ map.keys, calls.idxOf k ≤ calls.idxOf tid

/-- An expired entry where there is one, else a failed one where there is one, else the
one that was settled longest ago. -/
structure Rightful (map : Dict JSString SettledEntry) (calls : List JSString) (now : Nat)
    (victim : JSString) (entry : SettledEntry) : Prop where
  expired : (∃ x ∈ map.entries, Expired now x.2) → Expired now entry
  failed : (∀ x ∈ map.entries, ¬ Expired now x.2) → (∃ x ∈ map.entries, x.2.outcome = .fail) →
    entry.outcome = .fail
  oldest : (∀ x ∈ map.entries, ¬ Expired now x.2) → (∀ x ∈ map.entries, x.2.outcome ≠ .fail) →
    Oldest map calls victim

/-- What a call evicts is rightful; so a valid `ok` goes only where all are. -/
def Fair (m : SettledMemory) : SettledCall → Prop
  | .settle tid outcome =>
    ∀ x ∈ (m.written o tid outcome).entries, x.1 ∉ (m.settle o tid outcome).map.keys →
      Rightful (m.written o tid outcome) (tid :: m.calls) m.now x.1 x.2 ∧
        (¬ Expired m.now x.2 → x.2.outcome = .ok →
          ∀ y ∈ (m.written o tid outcome).entries, ¬ Expired m.now y.2 ∧ y.2.outcome = .ok)
  | _ => True

/-- A call that finds the map full, with another `tid` in it. -/
def Full (m : SettledMemory) (tid : JSString) : Prop :=
  m.map.has tid = false ∧ m.map.size = o.settledMaxEntries

/-- Where an entry has to go, the one in front is expired or was not settled again after
another; or else the first failed entry goes in its place, and it is expired or none is. -/
def InOrder (m : SettledMemory) : SettledCall → Prop
  | .settle tid outcome =>
    m.Full o tid →
      (∃ first ∈ (m.written o tid outcome).entries.head?,
        Expired m.now first.2 ∨ Oldest (m.written o tid outcome) (tid :: m.calls) first.1) ∨
      ∃ failed ∈ (m.written o tid outcome).entries.find? (·.2.outcome = .fail),
        Expired m.now failed.2 ∨ ∀ x ∈ (m.written o tid outcome).entries, ¬ Expired m.now x.2
  | _ => True

instance (m : SettledMemory) (e : SettledCall) : Decidable (InOrder o m e) := by
  unfold InOrder Full Oldest
  split <;> infer_instance

/-! ## What holds in every run -/

variable {o} {m m' : SettledMemory} {e : SettledCall}

/-- Of two entries the one that was settled later expires no sooner. -/
structure Kept (o : ReliableOptions) (m : SettledMemory) : Prop where
  size : m.map.size ≤ o.settledMaxEntries
  order : ∀ k e k' e', m.map.get? k = some e → m.map.get? k' = some e' →
    m.calls.idxOf k ≤ m.calls.idxOf k' → e'.expiresAt ≤ e.expiresAt
  bound : ∀ k e, m.map.get? k = some e → e.expiresAt ≤ m.now + o.settledTtlMs

theorem Kept.shrink (h : Kept o m) {map : Dict JSString SettledEntry}
    (within : Transport.Within map m.map) (size : map.size ≤ o.settledMaxEntries) :
    Kept o { m with map } :=
  ⟨size, fun k e k' e' hk hk' => h.order k e k' e' (within k e hk) (within k' e' hk'),
    fun k e hk => h.bound k e (within k e hk)⟩

/-- What is settled now expires last. -/
theorem Kept.order_written (h : Kept o m) (tid : JSString) (outcome : Outcome) {k k' : JSString}
    {e e' : SettledEntry} (hk : (m.written o tid outcome).get? k = some e)
    (hk' : (m.written o tid outcome).get? k' = some e')
    (later : (tid :: m.calls).idxOf k ≤ (tid :: m.calls).idxOf k') : e'.expiresAt ≤ e.expiresAt := by
  rw [written, Dict.get?_set] at hk hk'
  by_cases own : k = tid
  · rw [if_pos own] at hk
    cases hk
    by_cases own' : k' = tid
    · rw [if_pos own'] at hk'
      cases hk'
      exact le_rfl
    · rw [if_neg own'] at hk'
      exact h.bound k' e' hk'
  · rw [if_neg own] at hk
    rw [List.idxOf_cons_ne _ (Ne.symm own)] at later
    by_cases own' : k' = tid
    · rw [own', List.idxOf_cons_self] at later
      omega
    · rw [if_neg own'] at hk'
      rw [List.idxOf_cons_ne _ (Ne.symm own')] at later
      exact h.order k e k' e' hk hk' (by omega)

theorem Kept.settle (h : Kept o m) (tid : JSString) (outcome : Outcome) :
    Kept o (m.settle o tid outcome) := by
  have within := Transport.within_sweepSize (m.written o tid outcome) o.settledMaxEntries m.now
  refine ⟨Transport.evict_size _ _ _ _ le_rfl, fun k e k' e' hk hk' later => ?_, fun k e hk => ?_⟩
  · exact h.order_written tid outcome (within k e hk) (within k' e' hk') later
  · have old := within k e hk
    rw [written, Dict.get?_set] at old
    split at old
    · cases old
      exact le_rfl
    · exact h.bound k e old

/-- **The step lemma.** -/
theorem Kept.step (h : Kept o m) (hstep : step o m e = some m') : Kept o m' := by
  cases e with
  | settle tid outcome =>
    obtain rfl := Option.some.inj hstep
    exact h.settle tid outcome
  | sweep =>
    obtain rfl := Option.some.inj hstep
    apply h.shrink (Transport.within_sweepTtl m.map m.now)
    exact le_trans (List.length_filter_le _ _) h.size
  | wait ms =>
    obtain rfl := Option.some.inj hstep
    refine ⟨h.size, h.order, fun k e hk => le_trans (h.bound k e hk) ?_⟩
    exact Nat.add_le_add_right (Nat.le_add_right _ _) _

theorem kept_start (o : ReliableOptions) (now : Nat) : Kept o (start now) :=
  ⟨Nat.zero_le _, fun _ _ _ _ hk => (nomatch hk), fun _ _ hk => (nomatch hk)⟩

/-! ## The victim of a call -/

/-- Where one entry is too many, the picked one goes. -/
theorem sweep_one {map : Dict JSString SettledEntry} {maxEntries : Nat} (now : Nat)
    (h : map.size = maxEntries + 1) :
    ∃ victim, Transport.pickSettledEvictionVictim map now = some victim ∧
      Transport.sweepSettledMapSize map maxEntries now = map.delete victim := by
  cases picked : Transport.pickSettledEvictionVictim map now with
  | none =>
    have := Transport.pick_none picked
    omega
  | some victim =>
    refine ⟨victim, rfl, ?_⟩
    have less := Transport.size_delete (Transport.pick_mem picked)
    have one : Transport.sweepSettledMapSize map maxEntries now =
        Transport.evictSettled maxEntries now maxEntries (map.delete victim) := by
      rw [Transport.sweepSettledMapSize, h, Transport.evictSettled, if_neg (by omega), picked]
    rw [one]
    cases maxEntries with
    | zero => rfl
    | succ n => rw [Transport.evictSettled, if_pos (by omega)]

/-- A valid `ok` is evicted only where all are. -/
theorem Rightful.valid {map : Dict JSString SettledEntry} {calls : List JSString} {now : Nat}
    {victim : JSString} {entry : SettledEntry} (h : Rightful map calls now victim entry)
    (valid : ¬ Expired now entry) (ok : entry.outcome = .ok) :
    ∀ y ∈ map.entries, ¬ Expired now y.2 ∧ y.2.outcome = .ok := by
  have fresh : ∀ x ∈ map.entries, ¬ Expired now x.2 := fun x hx expired =>
    valid (h.expired ⟨x, hx, expired⟩)
  intro y hy
  refine ⟨fresh y hy, ?_⟩
  cases outcome : y.2.outcome with
  | ok => rfl
  | fail =>
    have := h.failed fresh ⟨y, hy, outcome⟩
    rw [ok] at this
    cases this

/-- Where the entry in front is the oldest and has not expired, none has. -/
theorem Kept.unexpired (h : Kept o m) (tid : JSString) (outcome : Outcome)
    {first : JSString × SettledEntry} (mem : first ∈ (m.written o tid outcome).entries)
    (oldest : Oldest (m.written o tid outcome) (tid :: m.calls) first.1)
    (valid : ¬ Expired m.now first.2) :
    ∀ x ∈ (m.written o tid outcome).entries, ¬ Expired m.now x.2 := by
  intro x hx expired
  have known : x.1 ∈ (m.written o tid outcome).keys := List.mem_map.mpr ⟨x, hx, rfl⟩
  have later := h.order_written tid outcome (Dict.get?_eq_some.mpr hx) (Dict.get?_eq_some.mpr mem)
    (oldest x.1 known)
  exact valid (le_trans later expired)

theorem entry_eq {map : Dict JSString SettledEntry} {x y : JSString × SettledEntry}
    (hx : x ∈ map.entries) (hy : y ∈ map.entries) (key : x.1 = y.1) : x = y := by
  have value := (Dict.get?_eq_some.mpr hx).symm.trans (key ▸ Dict.get?_eq_some.mpr hy)
  exact Prod.ext key (Option.some.inj value)

/-- How the victim is picked. -/
theorem pick_cases {map : Dict JSString SettledEntry} {now : Nat}
    {victim : JSString × SettledEntry}
    (picked : Transport.pickSettledEvictionVictim map now = some victim.1)
    (mem : victim ∈ map.entries) :
    ∃ first, map.entries.head? = some first ∧ first ∈ map.entries ∧
      ((Expired now first.2 ∧ victim = first) ∨
        ¬ Expired now first.2 ∧ (map.entries.find? (·.2.outcome = .fail) = some victim ∨
          map.entries.find? (·.2.outcome = .fail) = none ∧ victim = first)) := by
  unfold Transport.pickSettledEvictionVictim at picked
  split at picked
  · cases picked
  · rename_i oldest entry rest entries
    have own : (oldest, entry) ∈ map.entries := by simp [entries]
    refine ⟨(oldest, entry), by rw [entries, List.head?_cons], own, ?_⟩
    split at picked
    · rename_i expired
      exact .inl ⟨expired, entry_eq mem own (Option.some.inj picked).symm⟩
    · rename_i valid
      refine .inr ⟨valid, ?_⟩
      split at picked
      · rename_i tid failed found
        left
        rw [found, entry_eq mem (List.mem_of_find?_eq_some found) (Option.some.inj picked).symm]
      · rename_i none
        exact .inr ⟨none, entry_eq mem own (Option.some.inj picked).symm⟩

/-- **Which victims are rightful.** -/
theorem rightful_iff (h : Kept o m) (tid : JSString) (outcome : Outcome)
    {victim : JSString × SettledEntry}
    (picked : Transport.pickSettledEvictionVictim (m.written o tid outcome) m.now = some victim.1)
    (mem : victim ∈ (m.written o tid outcome).entries) :
    Rightful (m.written o tid outcome) (tid :: m.calls) m.now victim.1 victim.2 ↔
      (∃ first ∈ (m.written o tid outcome).entries.head?,
        Expired m.now first.2 ∨ Oldest (m.written o tid outcome) (tid :: m.calls) first.1) ∨
      ∃ failed ∈ (m.written o tid outcome).entries.find? (·.2.outcome = .fail),
        Expired m.now failed.2 ∨
          ∀ x ∈ (m.written o tid outcome).entries, ¬ Expired m.now x.2 := by
  obtain ⟨first, head, own, cases⟩ := pick_cases picked mem
  simp only [head, Option.mem_def, Option.some.injEq, exists_eq_left']
  have all : Expired m.now victim.2 →
      Rightful (m.written o tid outcome) (tid :: m.calls) m.now victim.1 victim.2 := fun expired =>
    ⟨fun _ => expired, fun fresh => absurd expired (fresh victim mem), fun fresh =>
      absurd expired (fresh victim mem)⟩
  rcases cases with ⟨expired, rfl⟩ | ⟨valid, found | ⟨none, rfl⟩⟩
  · exact iff_of_true (all expired) (.inl (.inl expired))
  · have fail : victim.2.outcome = .fail := by simpa using List.find?_some found
    have fresh : (∀ x ∈ (m.written o tid outcome).entries, ¬ Expired m.now x.2) →
        Rightful (m.written o tid outcome) (tid :: m.calls) m.now victim.1 victim.2 := fun fresh =>
      ⟨fun ⟨x, hx, expired⟩ => absurd expired (fresh x hx), fun _ _ => fail, fun _ ok =>
        absurd fail (ok victim mem)⟩
    simp only [found, Option.some.injEq, exists_eq_left']
    constructor
    · intro rightful
      right
      by_cases expired : Expired m.now victim.2
      · exact .inl expired
      · exact .inr fun x hx gone => expired (rightful.expired ⟨x, hx, gone⟩)
    · rintro ((expired | oldest) | (expired | none))
      · exact absurd expired valid
      · exact fresh (h.unexpired tid outcome own oldest valid)
      · exact all expired
      · exact fresh none
  · have ok : ∀ x ∈ (m.written o tid outcome).entries, x.2.outcome ≠ .fail := by
      intro x hx
      simpa using List.find?_eq_none.mp none x hx
    simp only [none, reduceCtorEq, false_and, exists_false, or_false]
    constructor
    · intro rightful
      refine .inr (rightful.oldest (fun x hx gone => ?_) ok)
      exact valid (rightful.expired ⟨x, hx, gone⟩)
    · rintro (expired | oldest)
      · exact absurd expired valid
      · have fresh := h.unexpired tid outcome own oldest valid
        exact ⟨fun ⟨x, hx, expired⟩ => absurd expired (fresh x hx), fun _ ⟨x, hx, fail⟩ =>
          absurd fail (ok x hx), fun _ _ => oldest⟩

/-! ## Runs -/

theorem size_written (m : SettledMemory) (tid : JSString) (outcome : Outcome) :
    (m.written o tid outcome).size = m.map.size + if m.map.has tid then 0 else 1 := by
  by_cases known : tid ∈ m.map.keys
  · rw [if_pos (Dict.mem_keys_iff_has.mp known), Dict.size, written,
      Dict.entries_set_present known, List.length_map]
    rfl
  · rw [if_neg fun has => known (Dict.mem_keys_iff_has.mpr has), Dict.size, written,
      Dict.entries_set_absent known, List.length_append]
    rfl

/-- **Exactly the calls in order evict rightfully.** -/
theorem fair_iff (h : Kept o m) (e : SettledCall) : Fair o m e ↔ InOrder o m e := by
  cases e with
  | sweep => exact Iff.rfl
  | wait ms => exact Iff.rfl
  | settle tid outcome =>
    have size := size_written (o := o) m tid outcome
    have cap := h.size
    by_cases full : m.Full o tid
    · rw [full.1, full.2] at size
      obtain ⟨victim, picked, swept⟩ := sweep_one m.now size
      obtain ⟨x, mem, rfl⟩ := List.mem_map.mp (Transport.pick_mem picked)
      have gone : ∀ y ∈ (m.written o tid outcome).entries,
          y.1 ∉ (m.settle o tid outcome).map.keys ↔ y = x := by
        intro y hy
        have kept : y.1 ∈ (m.written o tid outcome).keys := List.mem_map.mpr ⟨y, hy, rfl⟩
        rw [settle, swept, Dict.mem_keys_iff_has, Dict.has_delete, Dict.mem_keys_iff_has.mp kept]
        constructor
        · intro gone
          exact entry_eq hy mem (by simpa using gone)
        · rintro rfl
          simp
      rw [InOrder, ← rightful_iff h tid outcome picked mem]
      constructor
      · intro fair _
        exact (fair x mem ((gone x mem).mpr rfl)).1
      · intro rightful y hy evicted
        obtain rfl := (gone y hy).mp evicted
        exact ⟨rightful full, (rightful full).valid⟩
    · have fits : (m.written o tid outcome).size ≤ o.settledMaxEntries := by
        cases known : m.map.has tid with
        | true =>
          rw [known, if_pos rfl] at size
          omega
        | false =>
          rw [known] at size
          have room : m.map.size ≠ o.settledMaxEntries := fun same => full ⟨known, same⟩
          simp only [Bool.false_eq_true, if_false] at size
          omega
      refine iff_of_true ?_ fun now_full => absurd now_full full
      intro x hx evicted
      rw [settle, Transport.sweepSize_fits m.now fits] at evicted
      exact absurd (List.mem_map.mpr ⟨x, hx, rfl⟩) evicted

/-- **When the settled memory evicts rightfully.** It never outgrows its cap; and every
entry that a run evicts is expired if one is, else failed if one is, else the one settled
longest ago, exactly if every call of the run is in order. -/
theorem evictions_rightful {now : Nat} {es : List SettledCall}
    (run : exec (step o) (start now) es = some m) :
    m.map.size ≤ o.settledMaxEntries ∧
      (Run (step o) (Fair o) (start now) es m ↔ Run (step o) (InOrder o) (start now) es m) := by
  have preserved : ∀ m e m', Kept o m → step o m e = some m' → Kept o m' :=
    fun _ _ _ h hstep => h.step hstep
  have start := kept_start o now
  exact ⟨(exec_invariant (Kept o) preserved run start).size,
    Run.congr preserved (fun _ e h => fair_iff h e) start⟩

/-- Three tids with room for two: the failed one is evicted, not the one in front. -/
theorem evictions_rightful_failed :
    ∃ m, exec (step ⟨6, 60000, 10, 2⟩) (start 0)
        [.settle (lit "a") .ok, .wait 1, .settle (lit "b") .fail, .settle (lit "c") .ok] = some m ∧
      m.map.keys = [lit "a", lit "c"] ∧
      Run (step ⟨6, 60000, 10, 2⟩) (Fair ⟨6, 60000, 10, 2⟩) (start 0)
        [.settle (lit "a") .ok, .wait 1, .settle (lit "b") .fail, .settle (lit "c") .ok] m := by
  obtain ⟨m, run⟩ := Run.of_allGood (step ⟨6, 60000, 10, 2⟩) (InOrder ⟨6, 60000, 10, 2⟩) (start 0)
    [.settle (lit "a") .ok, .wait 1, .settle (lit "b") .fail, .settle (lit "c") .ok] (by decide)
  have left : m.map.keys = [lit "a", lit "c"] := run.read (f := fun m => m.map.keys) (by decide)
  exact ⟨m, run.exec_eq, left, (evictions_rightful run.exec_eq).2.mpr run⟩

/-- `a` is settled again and keeps its place in front: it is evicted while it is valid,
though `b` has expired. -/
theorem settled_again_is_evicted :
    ∃ m m', exec (step ⟨6, 60000, 10, 2⟩) (start 0)
        [.settle (lit "a") .ok, .wait 1, .settle (lit "b") .ok, .wait 9, .settle (lit "a") .ok,
          .wait 2] = some m ∧
      m.map.get? (lit "a") = some ⟨.ok, 20⟩ ∧ m.map.get? (lit "b") = some ⟨.ok, 11⟩ ∧ m.now = 12 ∧
      step ⟨6, 60000, 10, 2⟩ m (.settle (lit "c") .ok) = some m' ∧
      m'.map.keys = [lit "b", lit "c"] ∧
      ¬ Fair ⟨6, 60000, 10, 2⟩ m (.settle (lit "c") .ok) := by
  refine ⟨_, _, rfl, by decide, by decide, by decide, rfl, by decide, fun fair => ?_⟩
  have rightful := (fair (lit "a", ⟨.ok, 20⟩) (by decide) (by decide)).1
  exact absurd (rightful.expired ⟨(lit "b", ⟨.ok, 11⟩), by decide, by decide⟩) (by decide)

end SettledMemory

end LemonModel
