import Mathlib.Data.List.Basic
import Mathlib.Data.List.Nodup
import Mathlib.Data.List.Range
import Mathlib.Logic.Function.Iterate

/-!
# Transfer pool

`runPooled`: workers that share one cursor over the tasks, each taking the next index as
soon as its task settles.
-/

namespace LemonModel

/-- `started` is a record: the indices whose task was started, in order. -/
structure Pool (α : Type) where
  count : Nat
  next : Nat
  running : List Nat
  results : List (Option α)
  failed : Bool
  started : List Nat

namespace Pool

variable {α : Type}

/-- How many workers there are. -/
def workers (count : Nat) (limit : Int) : Nat := (max 1 (min limit count)).toNat

/-- A worker takes the next index, or returns when there is none. -/
def take (p : Pool α) : Pool α :=
  if p.next ≥ p.count then { p with next := p.next + 1 }
  else
    { p with
      next := p.next + 1
      running := p.running ++ [p.next]
      started := p.started ++ [p.next] }

/-- `runPooled(count, limit, task)`, up to where every worker awaits its first task. -/
def start (α : Type) (count : Nat) (limit : Int) : Pool α :=
  take^[workers count limit] ⟨count, 0, [], List.replicate count none, false, []⟩

/-- The task of an index settles; a worker whose task rejects is gone. -/
def settle (p : Pool α) (i : Nat) : Option α → Pool α
  | some result =>
    { p with running := p.running.erase i, results := p.results.set i (some result) }.take
  | none => { p with running := p.running.erase i, failed := true }

theorem count_take (p : Pool α) : p.take.count = p.count := by
  unfold take
  split <;> rfl

theorem results_take (p : Pool α) : p.take.results = p.results := by
  unfold take
  split <;> rfl

theorem results_start (count : Nat) (limit : Int) :
    (start α count limit).results = List.replicate count none :=
  Function.Iterate.rec (fun p : Pool α => p.results = List.replicate count none)
    rfl (fun p h => (results_take p).trans h) _

theorem count_start (count : Nat) (limit : Int) : (start α count limit).count = count :=
  Function.Iterate.rec (fun p : Pool α => p.count = count)
    rfl (fun p h => (count_take p).trans h) _

/-! ## What holds while no task rejects -/

/-- `size` workers, of which those that found no index have returned. -/
structure Sound (size : Nat) (p : Pool α) : Prop where
  started : p.started = List.range (min p.next p.count)
  nodup : p.running.Nodup
  below : ∀ i ∈ p.running, i < p.next ∧ i < p.count
  width : p.results.length = p.count
  filled : ∀ i < p.count, (p.results[i]?.join).isSome ↔ i < p.next ∧ i ∉ p.running
  busy : p.running.length + (p.next - p.count) = size
  failed : p.failed = false

variable {p : Pool α} {size i : Nat} {result : α}

theorem Sound.take (h : p.Sound size) : p.take.Sound (size + 1) := by
  unfold Pool.take
  split
  · rename_i spent
    refine ⟨?_, h.nodup, fun i mem => ?_, h.width, fun i hi => ?_, ?_, h.failed⟩
    · show p.started = List.range (min (p.next + 1) p.count)
      rw [h.started]
      congr 1
      omega
    · obtain ⟨before, inside⟩ := h.below i mem
      exact ⟨by dsimp only; omega, inside⟩
    · change i < p.count at hi
      show (p.results[i]?.join).isSome ↔ i < p.next + 1 ∧ i ∉ p.running
      rw [h.filled i hi]
      constructor
      · exact fun ⟨_, out⟩ => ⟨by omega, out⟩
      · exact fun ⟨_, out⟩ => ⟨by omega, out⟩
    · have := h.busy
      dsimp only
      omega
  · rename_i more
    have fresh : p.next ∉ p.running := fun mem => by
      have := h.below _ mem
      omega
    refine ⟨?_, ?_, fun i mem => ?_, h.width, fun i hi => ?_, ?_, h.failed⟩
    · show p.started ++ [p.next] = List.range (min (p.next + 1) p.count)
      have before : min p.next p.count = p.next := by omega
      have after : min (p.next + 1) p.count = p.next + 1 := by omega
      rw [h.started, before, after, List.range_succ]
    · show (p.running ++ [p.next]).Nodup
      rw [List.nodup_append]
      refine ⟨h.nodup, List.nodup_singleton _, fun a mem b single => ?_⟩
      rintro rfl
      exact fresh (List.mem_singleton.mp single ▸ mem)
    · rcases List.mem_append.mp mem with mem | mem
      · obtain ⟨before, inside⟩ := h.below i mem
        exact ⟨by dsimp only; omega, inside⟩
      · obtain rfl := List.mem_singleton.mp mem
        exact ⟨by dsimp only; omega, by dsimp only; omega⟩
    · change i < p.count at hi
      show (p.results[i]?.join).isSome ↔ i < p.next + 1 ∧ i ∉ p.running ++ [p.next]
      rw [h.filled i hi, List.mem_append, List.mem_singleton]
      constructor
      · rintro ⟨before, out⟩
        exact ⟨by omega, fun mem => mem.elim out (by omega)⟩
      · rintro ⟨before, out⟩
        have : i ≠ p.next := fun same => out (.inr same)
        exact ⟨by omega, fun mem => out (.inl mem)⟩
    · have := h.busy
      show (p.running ++ [p.next]).length + (p.next + 1 - p.count) = size + 1
      rw [List.length_append, List.length_singleton]
      omega

theorem Sound.takes (h : p.Sound size) (n : Nat) : (Pool.take^[n] p).Sound (size + n) := by
  induction n generalizing p size with
  | zero => exact h
  | succ n ih =>
    rw [Function.iterate_succ_apply]
    have := ih h.take
    rwa [Nat.add_right_comm, Nat.add_assoc] at this

theorem sound_start (α : Type) (count : Nat) (limit : Int) :
    (start α count limit).Sound (workers count limit) := by
  have empty : Sound 0 (⟨count, 0, [], List.replicate count none, false, []⟩ : Pool α) := by
    refine ⟨?_, List.nodup_nil, fun i mem => (nomatch mem), List.length_replicate, fun i hi => ?_,
      ?_, rfl⟩
    · rw [Nat.zero_min]
      rfl
    · simp [hi]
    · simp
  have := empty.takes (workers count limit)
  rwa [Nat.zero_add] at this

/-- The worker whose task settled takes the next index. -/
theorem Sound.settle (h : p.Sound size) (mem : i ∈ p.running) (result : α) :
    (p.settle i (some result)).Sound size := by
  obtain ⟨before, inside⟩ := h.below i mem
  have room : 0 < p.running.length := List.length_pos_of_mem mem
  have freed : Sound (size - 1)
      { p with running := p.running.erase i, results := p.results.set i (some result) } := by
    refine ⟨h.started, h.nodup.erase i, fun j mem => h.below j (List.mem_of_mem_erase mem),
      ?_, fun j hj => ?_, ?_, h.failed⟩
    · rw [List.length_set]
      exact h.width
    · show ((p.results.set i (some result))[j]?.join).isSome ↔ j < p.next ∧ j ∉ p.running.erase i
      rw [h.nodup.mem_erase_iff, List.getElem?_set]
      by_cases same : i = j
      · subst same
        simp [h.width, inside, before]
      · rw [if_neg same, h.filled j hj]
        constructor
        · exact fun ⟨le, out⟩ => ⟨le, fun both => out both.2⟩
        · exact fun ⟨le, out⟩ => ⟨le, fun running => out ⟨Ne.symm same, running⟩⟩
    · have := h.busy
      show (p.running.erase i).length + (p.next - p.count) = size - 1
      rw [List.length_erase_of_mem mem]
      omega
  have := h.busy
  have again := freed.take
  rwa [Nat.sub_add_cancel (by omega)] at again

/-! ## After a task settled -/

section

variable (p : Pool α) (i : Nat) (result : α)

theorem next_settle : (p.settle i (some result)).next = p.next + 1 := by
  unfold settle Pool.take
  dsimp only
  split <;> rfl

theorem results_settle : (p.settle i (some result)).results = p.results.set i (some result) :=
  results_take _

theorem count_settle : (p.settle i (some result)).count = p.count := count_take _

end

theorem Sound.mem_running_settle (h : p.Sound size) (i : Nat) (result : α) {j : Nat}
    (hj : j < p.count) :
    j ∈ (p.settle i (some result)).running ↔ j ∈ p.running ∧ j ≠ i ∨ j = p.next := by
  unfold Pool.settle Pool.take
  dsimp only
  split
  · rename_i spent
    rw [h.nodup.mem_erase_iff]
    constructor
    · exact fun ⟨ne, mem⟩ => .inl ⟨mem, ne⟩
    · rintro (⟨mem, ne⟩ | same)
      · exact ⟨ne, mem⟩
      · omega
  · rw [List.mem_append, h.nodup.mem_erase_iff, List.mem_singleton, and_comm]

/-- No worker idles while an index remains. -/
theorem Sound.full (h : p.Sound size) (more : p.next < p.count) : p.running.length = size := by
  have := h.busy
  omega

/-- The pool resolves when no task runs any more: every index then has its result. -/
theorem Sound.all_filled (h : p.Sound size) (pos : 0 < size) (idle : p.running = [])
    (hi : i < p.count) : (p.results[i]?.join).isSome := by
  have busy := h.busy
  rw [idle, List.length_nil] at busy
  exact (h.filled i hi).mpr ⟨by omega, by simp [idle]⟩

end Pool

end LemonModel
