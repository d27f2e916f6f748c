import LemonModel.Upload.Engine
import Mathlib.Algebra.BigOperators.Group.Finset.Basic
import Mathlib.Algebra.Order.BigOperators.Group.Finset

/-!
# Every slot is completed

In whatever order the executors settle, `complete` is called once, with one item for each
ticket that has an id, and no failure of a transfer gets further than its own slot.
-/

namespace LemonModel

open Text

/-! ## One slot -/

/-- What `complete` is told of a ticket whose original's executor settled with `original`. -/
def receiptOf (executors : List JSString) (ticket : UploadTicket)
    (original : Option ExecutorOutcome) : Option UploadCompleteItem :=
  match ticket.upload.id? with
  | none => none
  | some id =>
    match ticket.transfer with
    | none => some ⟨id, none⟩
    | some kind =>
      if kind ∈ executors then
        match original with
        | some (.receipt item) => some item
        | some (.throws text) => text.map fun message => ⟨id, some (thrown message)⟩
        | none => none
      else some ⟨id, some notAcceptable⟩

/-- The transfer of the original failed, threw, or had no executor. -/
def OriginalFailed (executors : List JSString) (ticket : UploadTicket)
    (original : Option ExecutorOutcome) : Prop :=
  ∃ kind, ticket.transfer = some kind ∧
    (kind ∉ executors ∨ (∃ item, original = some (.receipt item) ∧ item.failure.isSome) ∨
      ∃ text, original = some (.throws text))

/-- The slot of a ticket is through, with `item`. -/
def Slot (executors : List JSString) (ticket : UploadTicket) (original : Option ExecutorOutcome)
    (item : Option UploadCompleteItem) : Prop :=
  item = receiptOf executors ticket original ∧
    item.map UploadCompleteItem.id = ticket.upload.id?

/-- What a transfer is waiting for is there to come, and what it has is right. -/
def PhaseOk (executors : List JSString) (ticket : UploadTicket)
    (original : Option ExecutorOutcome) : TransferPhase → Prop
  | .original => ∃ id kind, ticket.upload.id? = some id ∧ ticket.transfer = some kind ∧
      kind ∈ executors
  | .thumbnail receipt => Slot executors ticket original (some receipt)
  | .done result => ∃ item, result = some item ∧ Slot executors ticket original item

section

variable {executors : List JSString} {ticket : UploadTicket} {original : Option ExecutorOutcome}
  {item : UploadCompleteItem} {id kind : JSString}

theorem failure_iff (h : receiptOf executors ticket original = some item) :
    item.failure.isSome = true ↔ OriginalFailed executors ticket original := by
  unfold receiptOf at h
  unfold OriginalFailed
  split at h
  · cases h
  · split at h
    · rename_i noTransfer
      obtain rfl := Option.some.inj h
      simp [noTransfer]
    · rename_i kind given
      split at h
      · rename_i mem
        split at h
        · obtain rfl := Option.some.inj h
          simp [given, mem]
        · obtain ⟨message, -, rfl⟩ := Option.map_eq_some_iff.mp h
          simp [given]
        · cases h
      · rename_i out
        obtain rfl := Option.some.inj h
        simp [given, out]

theorem phaseOk_afterOriginal (h : Slot executors ticket original (some item))
    (thumbnail : Option Double) :
    PhaseOk executors ticket original (afterOriginal executors ticket thumbnail item) := by
  unfold afterOriginal
  split
  · exact ⟨some item, rfl, h⟩
  · split
    · split
      · exact h
      · exact ⟨some item, rfl, h⟩
    · exact ⟨some item, rfl, h⟩

theorem phaseOk_transfer (executors : List JSString) (ticket : UploadTicket)
    (thumbnail : Option Double) (original : Option ExecutorOutcome) :
    PhaseOk executors ticket original (transfer executors ticket thumbnail) := by
  unfold transfer
  cases own : ticket.upload.id? with
  | none => exact ⟨none, rfl, by simp [receiptOf, own], own.symm⟩
  | some id =>
    cases given : ticket.transfer with
    | none =>
      apply phaseOk_afterOriginal
      exact ⟨by simp [receiptOf, own, given], own.symm⟩
    | some kind =>
      dsimp only
      split
      · rename_i mem
        exact ⟨id, kind, own, given, mem⟩
      · rename_i out
        apply phaseOk_afterOriginal
        exact ⟨by simp [receiptOf, own, given, out], own.symm⟩

/-- A receipt names its slot, and what is thrown has a text. -/
def ExecutorOutcome.Fits (ticket : UploadTicket) : ExecutorOutcome → Bool
  | .receipt item => ticket.upload.id? = some item.id
  | .throws text => text.isSome

theorem phaseOk_settleOriginal {outcome : ExecutorOutcome} (fits : outcome.Fits ticket = true)
    (h : PhaseOk executors ticket original .original) (thumbnail : Option Double) :
    PhaseOk executors ticket (some outcome)
      (settleOriginal executors ticket thumbnail outcome) := by
  obtain ⟨id, kind, own, given, mem⟩ := h
  cases outcome with
  | receipt item =>
    have named := of_decide_eq_true fits
    apply phaseOk_afterOriginal
    exact ⟨by simp [receiptOf, own, given, mem], named.symm⟩
  | throws text =>
    obtain ⟨message, rfl⟩ := Option.isSome_iff_exists.mp fits
    simp only [settleOriginal, own, Option.map_some]
    exact ⟨some ⟨id, some (thrown message)⟩, rfl, by simp [receiptOf, own, given, mem], own.symm⟩

/-! ## How much there is left to do -/

def TransferPhase.left : TransferPhase → Nat
  | .original => 3
  | .thumbnail _ => 2
  | .done _ => 1

def UploadEvent.isReport : UploadEvent → Bool
  | .report .. => true
  | _ => false

theorem left_le (phase : TransferPhase) : phase.left ≤ 3 := by
  cases phase <;> simp [TransferPhase.left]

theorem left_afterOriginal (thumbnail : Option Double) :
    (afterOriginal executors ticket thumbnail item).left ≤ 2 := by
  unfold afterOriginal
  split
  · simp [TransferPhase.left]
  · split
    · split <;> simp [TransferPhase.left]
    · simp [TransferPhase.left]

theorem left_settleOriginal (thumbnail : Option Double) (outcome : ExecutorOutcome) :
    (settleOriginal executors ticket thumbnail outcome).left ≤ 2 := by
  cases outcome with
  | receipt item => exact left_afterOriginal thumbnail
  | throws text =>
    cases own : ticket.upload.id? <;> simp [settleOriginal, own, TransferPhase.left]

end

namespace UploadRun

variable {u u' : UploadRun} {e : UploadEvent}

/-! ## While the pool runs -/

/-- What each ticket comes to. -/
def items (u : UploadRun) : List UploadCompleteItem :=
  u.tickets.zipIdx.filterMap fun (ticket, i) => receiptOf u.executors ticket (u.originals i)

/-- The pool is sound, a slot it has not filled waits, and one it has filled is right. -/
structure Transfers (u : UploadRun) : Prop where
  pool : u.pool.Sound (Pool.workers u.tickets.length (u.concurrency.getD 3))
  count : u.pool.count = u.tickets.length
  waits : ∀ i ticket, u.tickets[i]? = some ticket → (u.pool.next ≤ i ∨ i ∈ u.pool.running) →
    PhaseOk u.executors ticket (u.originals i) (u.phases i)
  full : ∀ i ticket, u.tickets[i]? = some ticket → i < u.pool.next → i ∉ u.pool.running →
    ∃ item, u.pool.results[i]?.join = some item ∧
      Slot u.executors ticket (u.originals i) item

/-- A task that runs is that of a ticket. -/
theorem Transfers.ticket (h : u.Transfers) {i : Nat} (mem : i ∈ u.pool.running) :
    ∃ ticket, u.tickets[i]? = some ticket := by
  have inside := (h.pool.below i mem).2
  rw [h.count] at inside
  exact ⟨u.tickets[i], List.getElem?_eq_getElem inside⟩

theorem Transfers.filled (h : u.Transfers) (idle : u.pool.running = []) {i : Nat}
    {ticket : UploadTicket} (at_ : u.tickets[i]? = some ticket) :
    ∃ item, u.pool.results[i]?.join = some item ∧
      Slot u.executors ticket (u.originals i) item := by
  have inside : i < u.tickets.length := (List.getElem?_eq_some_iff.mp at_).1
  have pos : 0 < Pool.workers u.tickets.length (u.concurrency.getD 3) := by
    unfold Pool.workers
    omega
  have some := h.pool.all_filled pos idle (h.count.symm ▸ inside)
  exact h.full i ticket at_ ((h.pool.filled i (h.count.symm ▸ inside)).mp some).1 (by simp [idle])

/-- What is left over when the pool is through are the items of the tickets. -/
theorem Transfers.pending (h : u.Transfers) (idle : u.pool.running = []) :
    u.pool.results.filterMap Option.join = u.items := by
  have results : u.pool.results =
      u.tickets.zipIdx.map fun p => some (receiptOf u.executors p.1 (u.originals p.2)) := by
    apply List.ext_getElem?
    intro i
    rw [List.getElem?_map, List.getElem?_zipIdx]
    cases at_ : u.tickets[i]? with
    | none =>
      have outside := List.getElem?_eq_none_iff.mp at_
      rw [List.getElem?_eq_none (by rw [h.pool.width, h.count]; exact outside)]
      rfl
    | some ticket =>
      obtain ⟨item, filled, slot⟩ := h.filled idle at_
      have result := Option.join_eq_some_iff.mp filled
      rw [result, slot.1]
      simp
  rw [results, List.filterMap_map]
  rfl

theorem Transfers.ids (h : u.Transfers) (idle : u.pool.running = []) :
    u.items.map UploadCompleteItem.id = u.tickets.filterMap fun ticket => ticket.upload.id? := by
  have named : ∀ p ∈ u.tickets.zipIdx,
      (receiptOf u.executors p.1 (u.originals p.2)).map UploadCompleteItem.id =
        p.1.upload.id? := by
    rintro ⟨ticket, i⟩ mem
    obtain ⟨item, -, slot⟩ := h.filled idle (List.mem_zipIdx_iff_getElem?.mp mem)
    exact slot.1 ▸ slot.2
  unfold items
  rw [List.map_filterMap, List.filterMap_congr named]
  conv_rhs => rw [← List.zipIdx_map_fst 0 u.tickets, List.filterMap_map]
  rfl

/-- Where an upload can be. -/
inductive Stands (u : UploadRun) : Prop where
  | early (stage : u.stage = .hashing ∨ u.stage = .starting) (idle : u.pool.running = [])
      (none : u.completes = [])
  | transferring (stage : u.stage = .transferring) (transfers : u.Transfers)
      (busy : u.pool.running ≠ []) (none : u.completes = [])
  | completing (stage : u.stage = .completing) (transfers : u.Transfers)
      (idle : u.pool.running = []) (once : u.completes = [u.items])
  | resolved (stage : u.stage = .resolved (u.tickets.map (viewOf u.settled)))
      (transfers : u.Transfers) (idle : u.pool.running = [])
      (once : u.completes = [u.items] ∨ u.completes = [] ∧ u.items = [] ∧ u.settled = [])
  | faulted (stage : u.stage = .rejected .hashing ∨ u.stage = .rejected .start)
      (idle : u.pool.running = []) (none : u.completes = [])
  | unconfirmed (stage : u.stage = .rejected .complete) (transfers : u.Transfers)
      (idle : u.pool.running = []) (once : u.completes = [u.items])

theorem stands_create (executors : List JSString) (concurrency : Option Int)
    (sources : List UploadSource) : (create executors concurrency sources).Stands :=
  .early (.inl rfl) rfl rfl

theorem stands_tracker (h : u.Stands) (tracker : UploadProgressTracker) :
    { u with tracker := tracker }.Stands := by
  have same : u.Transfers → { u with tracker := tracker }.Transfers :=
    fun t => ⟨t.pool, t.count, t.waits, t.full⟩
  cases h with
  | early stage idle none => exact .early stage idle none
  | transferring stage transfers busy none => exact .transferring stage (same transfers) busy none
  | completing stage transfers idle once => exact .completing stage (same transfers) idle once
  | resolved stage transfers idle once => exact .resolved stage (same transfers) idle once
  | faulted stage idle none => exact .faulted stage idle none
  | unconfirmed stage transfers idle once => exact .unconfirmed stage (same transfers) idle once

/-- A task only runs while the upload transfers. -/
theorem Stands.running (h : u.Stands) {i : Nat} (mem : i ∈ u.pool.running) :
    u.stage = .transferring ∧ u.Transfers ∧ u.completes = [] := by
  cases h with
  | transferring stage transfers _ none => exact ⟨stage, transfers, none⟩
  | early _ idle _ | completing _ _ idle _ | resolved _ _ idle _ | faulted _ idle _
  | unconfirmed _ _ idle _ => simp [idle] at mem

theorem stands_awaitPool (stage : u.stage = .transferring) (transfers : u.Transfers)
    (none : u.completes = []) : u.awaitPool.Stands := by
  have sound := transfers.pool.failed
  unfold awaitPool
  rw [if_neg (by simp [stage]), if_neg (by simp [sound])]
  by_cases idle : u.pool.running = []
  · have pending := transfers.pending idle
    rw [if_pos idle]
    unfold afterPool
    dsimp only
    rw [pending]
    by_cases empty : u.items = []
    · rw [if_pos empty]
      exact .resolved rfl ⟨transfers.pool, transfers.count, transfers.waits, transfers.full⟩ idle
        (.inr ⟨none, empty, rfl⟩)
    · rw [if_neg empty]
      exact .completing rfl ⟨transfers.pool, transfers.count, transfers.waits, transfers.full⟩ idle
        (by rw [none]; rfl)
  · rw [if_neg idle]
    exact .transferring stage transfers idle none

/-- A slot whose transfer goes on. -/
theorem Transfers.goOn (h : u.Transfers) {i : Nat} (mem : i ∈ u.pool.running)
    {phase : TransferPhase} {original : Option ExecutorOutcome}
    (ok : ∀ ticket, u.tickets[i]? = some ticket → PhaseOk u.executors ticket original phase) :
    { u with
      phases := Function.update u.phases i phase
      originals := Function.update u.originals i original }.Transfers where
  pool := h.pool
  count := h.count
  waits j ticket at_ open_ := by
    by_cases own : j = i
    · subst own
      simp only [Function.update_self]
      exact ok ticket at_
    · simp only [Function.update_of_ne own]
      exact h.waits j ticket at_ open_
  full j ticket at_ before out := by
    have own : j ≠ i := fun same => out (same ▸ mem)
    simp only [Function.update_of_ne own]
    exact h.full j ticket at_ before out

/-- A slot whose transfer is through. -/
theorem Transfers.finish (h : u.Transfers) {i : Nat} (mem : i ∈ u.pool.running)
    {item : Option UploadCompleteItem} (phase : u.phases i = .done (some item))
    (tracker : UploadProgressTracker) :
    { u with tracker := tracker, pool := u.pool.settle i (some item) }.Transfers := by
  obtain ⟨before, inside⟩ := h.pool.below i mem
  have sound := h.pool.settle mem item
  have running {j : Nat} (hj : j < u.pool.count) := h.pool.mem_running_settle i item hj
  refine ⟨sound, (u.pool.count_settle i item).trans h.count, fun j ticket at_ open_ => ?_,
    fun j ticket at_ lt out => ?_⟩
  · have hj : j < u.pool.count := h.count ▸ (List.getElem?_eq_some_iff.mp at_).1
    apply h.waits j ticket at_
    dsimp only at open_
    rw [Pool.next_settle, running hj] at open_
    rcases open_ with after | ⟨mem, -⟩ | same
    · exact .inl (by omega)
    · exact .inr mem
    · exact .inl (by omega)
  · have hj : j < u.pool.count := h.count ▸ (List.getElem?_eq_some_iff.mp at_).1
    dsimp only at lt out ⊢
    rw [Pool.next_settle] at lt
    rw [running hj] at out
    rw [Pool.results_settle, List.getElem?_set]
    by_cases own : i = j
    · subst own
      rw [if_pos rfl, if_pos (by rw [h.pool.width]; exact inside)]
      obtain ⟨item', same, slot⟩ := phase ▸ h.waits i ticket at_ (.inr mem)
      obtain rfl := Option.some.inj same
      exact ⟨item, rfl, slot⟩
    · rw [if_neg own]
      apply h.full j ticket at_
      · have : j ≠ u.pool.next := fun same => out (.inr same)
        omega
      · exact fun mem => out (.inl ⟨mem, Ne.symm own⟩)

theorem transfers_start (u : UploadRun) (tickets : List UploadTicket) :
    { u with
      stage := .transferring
      tickets := tickets
      phases := fun i => (tickets[i]?).elim (.done (some none)) fun ticket =>
        transfer u.executors ticket (u.thumbnailOf i)
      pool := .start _ tickets.length (u.concurrency.getD 3) }.Transfers where
  pool := Pool.sound_start _ _ _
  count := Pool.count_start _ _
  waits i ticket at_ _ := by
    dsimp only at at_ ⊢
    rw [at_]
    exact phaseOk_transfer u.executors ticket (u.thumbnailOf i) (u.originals i)
  full i ticket at_ before out := by
    have sound := Pool.sound_start (Option UploadCompleteItem) tickets.length
      (u.concurrency.getD 3)
    have inside : i < tickets.length := (List.getElem?_eq_some_iff.mp at_).1
    have filled := (sound.filled i ((Pool.count_start _ _).symm ▸ inside)).mpr ⟨before, out⟩
    rw [Pool.results_start, List.getElem?_replicate, if_pos inside] at filled
    cases filled

/-- A receipt names its slot, and whatever is thrown at an original has a text. -/
def Contained (u : UploadRun) : UploadEvent → Prop
  | .original i outcome => ((u.tickets[i]?).all fun ticket => outcome.Fits ticket) = true
  | _ => True

instance : ∀ (u : UploadRun) (e : UploadEvent), Decidable (u.Contained e)
  | u, .original i outcome =>
    inferInstanceAs (Decidable (((u.tickets[i]?).all fun ticket => outcome.Fits ticket) = true))
  | _, .hashed _ | _, .started _ | _, .report .. | _, .thumbnail .. | _, .finish _
  | _, .completed _ => isTrue trivial

theorem Stands.starting (h : u.Stands) (stage : u.stage = .starting) :
    u.pool.running = [] ∧ u.completes = [] := by
  cases h with
  | early _ idle none => exact ⟨idle, none⟩
  | transferring stage' | completing stage' | resolved stage' | unconfirmed stage' =>
    simp [stage] at stage'
  | faulted stage' => simp [stage] at stage'

theorem Stands.completing_once (h : u.Stands) (stage : u.stage = .completing) :
    u.Transfers ∧ u.pool.running = [] ∧ u.completes = [u.items] := by
  cases h with
  | completing _ transfers idle once => exact ⟨transfers, idle, once⟩
  | early stage' | faulted stage' => simp [stage] at stage'
  | transferring stage' | resolved stage' | unconfirmed stage' => simp [stage] at stage'

theorem stands_step (h : u.Stands) (contained : u.Contained e) (hstep : u.step e = some u') :
    u'.Stands := by
  cases step_does hstep with
  | hashed ok stage =>
    cases h with
    | early _ idle none =>
      cases ok with
      | true => exact .early (.inr rfl) idle none
      | false => exact .faulted (.inl rfl) idle none
    | transferring stage' | completing stage' | resolved stage' | unconfirmed stage' =>
      simp [stage] at stage'
    | faulted stage' => simp [stage] at stage'
  | refused stage =>
    obtain ⟨idle, none⟩ := h.starting stage
    exact .faulted (.inr rfl) idle none
  | started tickets stage fits =>
    refine stands_awaitPool ?_ (transfers_start u tickets) (h.starting stage).2
    rfl
  | report => exact stands_tracker h _
  | original i outcome ticket at_ mem phase =>
    obtain ⟨stage, transfers, none⟩ := h.running mem
    have fits : outcome.Fits ticket = true := by simpa [Contained, at_] using contained
    have waits := transfers.waits i ticket at_ (.inr mem)
    rw [phase] at waits
    refine .transferring stage (transfers.goOn mem fun t ht => ?_) (List.ne_nil_of_mem mem) none
    obtain rfl := Option.some.inj (at_.symm.trans ht)
    exact phaseOk_settleOriginal fits waits _
  | thumbnail i outcome receipt phase mem =>
    obtain ⟨stage, transfers, none⟩ := h.running mem
    have done : ∀ ticket, u.tickets[i]? = some ticket →
        PhaseOk u.executors ticket (u.originals i) (.done (some (some receipt))) := by
      intro ticket at_
      have waits := transfers.waits i ticket at_ (.inr mem)
      rw [phase] at waits
      exact ⟨some receipt, rfl, waits⟩
    have goOn := transfers.goOn mem done
    rw [Function.update_eq_self] at goOn
    exact .transferring stage goOn (List.ne_nil_of_mem mem) none
  | finish i result phase mem =>
    obtain ⟨stage, transfers, none⟩ := h.running mem
    obtain ⟨ticket, at_⟩ := transfers.ticket mem
    obtain ⟨item, rfl, -⟩ := phase ▸ transfers.waits i ticket at_ (.inr mem)
    exact stands_awaitPool stage (transfers.finish mem phase _) none
  | unconfirmed stage =>
    obtain ⟨t, idle, once⟩ := h.completing_once stage
    exact .unconfirmed rfl ⟨t.pool, t.count, t.waits, t.full⟩ idle once
  | joined settled stage =>
    obtain ⟨t, idle, once⟩ := h.completing_once stage
    exact .resolved rfl ⟨t.pool, t.count, t.waits, t.full⟩ idle (.inl once)

/-! ## It comes to an end -/

/-- How many steps, apart from reports, there are left at most. -/
def left (u : UploadRun) : Nat :=
  match u.stage with
  | .hashing => 3 * u.sources.length + 4
  | .starting => 3 * u.sources.length + 3
  | .transferring =>
    2 + ∑ i ∈ Finset.range u.tickets.length,
      if i < u.pool.next ∧ i ∉ u.pool.running then 0 else (u.phases i).left
  | .completing => 1
  | .resolved _ | .rejected _ => 0

theorem left_awaitPool (stage : u.stage = .transferring) : u.awaitPool.left ≤ u.left := by
  have room : 2 ≤ u.left := by
    unfold left
    rw [stage]
    exact Nat.le_add_right 2 _
  unfold awaitPool
  rw [if_neg (by simp [stage])]
  split
  · exact Nat.zero_le _
  · split
    · unfold afterPool
      dsimp only
      split
      · exact Nat.zero_le _
      · exact le_trans (by simp [left]) room
    · exact le_refl _

theorem left_transferring (stage : u.stage = .transferring)
    (fits : u.tickets.length ≤ u.sources.length) : u.left ≤ 3 * u.sources.length + 2 := by
  have sum : ∑ i ∈ Finset.range u.tickets.length,
      (if i < u.pool.next ∧ i ∉ u.pool.running then 0 else (u.phases i).left) ≤
        (Finset.range u.tickets.length).card • 3 := by
    apply Finset.sum_le_card_nsmul
    intro i _
    split
    · exact Nat.zero_le _
    · exact left_le _
  rw [Finset.card_range, smul_eq_mul] at sum
  unfold left
  rw [stage]
  dsimp only
  omega

/-- A slot whose phase has less left to do. -/
theorem left_update {i : Nat} (stage : u.stage = .transferring) (transfers : u.Transfers)
    (mem : i ∈ u.pool.running) {phase : TransferPhase} (less : phase.left < (u.phases i).left)
    (originals : Nat → Option ExecutorOutcome) :
    { u with phases := Function.update u.phases i phase, originals := originals }.left <
      u.left := by
  have inside : i < u.tickets.length := transfers.count ▸ (transfers.pool.below i mem).2
  unfold left
  dsimp only
  rw [stage]
  apply Nat.add_lt_add_left
  apply Finset.sum_lt_sum
  · intro j _
    by_cases own : j = i
    · subst own
      simp only [mem, not_true_eq_false, and_false, if_false, Function.update_self]
      exact less.le
    · simp only [Function.update_of_ne own]
      exact le_refl _
  · refine ⟨i, Finset.mem_range.mpr inside, ?_⟩
    simp only [mem, not_true_eq_false, and_false, if_false, Function.update_self]
    exact less

theorem left_finish {i : Nat} (stage : u.stage = .transferring) (transfers : u.Transfers)
    (mem : i ∈ u.pool.running) (item : Option UploadCompleteItem)
    (tracker : UploadProgressTracker) :
    { u with tracker := tracker, pool := u.pool.settle i (some item) }.left < u.left := by
  obtain ⟨before, inside⟩ := transfers.pool.below i mem
  have through : ∀ j < u.pool.count,
      j < u.pool.next + 1 ∧ j ∉ (u.pool.settle i (some item)).running ↔
        j < u.pool.next ∧ j ∉ u.pool.running ∨ j = i := by
    intro j hj
    rw [transfers.pool.mem_running_settle i item hj]
    constructor
    · rintro ⟨lt, out⟩
      by_cases own : j = i
      · exact .inr own
      · exact .inl ⟨by omega, fun mem => out (.inl ⟨mem, own⟩)⟩
    · rintro (⟨lt, out⟩ | rfl)
      · exact ⟨by omega, fun h => h.elim (fun h => out h.1) (by omega)⟩
      · exact ⟨by omega, fun h => h.elim (fun h => h.2 rfl) (by omega)⟩
  have positive : ∀ phase : TransferPhase, 0 < phase.left := fun phase => by
    cases phase <;> simp [TransferPhase.left]
  unfold left
  dsimp only
  rw [stage]
  apply Nat.add_lt_add_left
  rw [Pool.next_settle]
  apply Finset.sum_lt_sum
  · intro j hj
    have known := through j (transfers.count ▸ Finset.mem_range.mp hj)
    by_cases was : j < u.pool.next ∧ j ∉ u.pool.running
    · rw [if_pos (known.mpr (.inl was))]
      exact Nat.zero_le _
    · rw [if_neg was]
      split
      · exact Nat.zero_le _
      · exact le_refl _
  · refine ⟨i, Finset.mem_range.mpr (transfers.count ▸ inside), ?_⟩
    rw [if_pos ((through i inside).mpr (.inr rfl)), if_neg fun h => h.2 mem]
    exact positive _

theorem left_step (h : u.Stands) (contained : u.Contained e) (hstep : u.step e = some u') :
    if e.isReport then u'.left = u.left else u'.left < u.left := by
  cases step_does hstep with
  | hashed ok stage => cases ok <;> simp [UploadEvent.isReport, left, stage]
  | refused stage => simp [UploadEvent.isReport, left, stage]
  | started tickets stage fits =>
    have before : u.left = 3 * u.sources.length + 3 := by
      unfold left
      rw [stage]
    simp only [UploadEvent.isReport, Bool.false_eq_true, if_false, before]
    exact Nat.lt_succ_of_le (le_trans (left_awaitPool rfl) (left_transferring rfl fits))
  | report => rfl
  | original i outcome ticket at_ mem phase =>
    obtain ⟨stage, transfers, -⟩ := h.running mem
    apply left_update stage transfers mem _ _
    rw [phase]
    exact Nat.lt_succ_of_le (left_settleOriginal _ outcome)
  | thumbnail i outcome receipt phase mem =>
    obtain ⟨stage, transfers, -⟩ := h.running mem
    apply left_update stage transfers mem _ u.originals
    rw [phase]
    exact Nat.lt_succ_self 1
  | finish i result phase mem =>
    obtain ⟨stage, transfers, -⟩ := h.running mem
    obtain ⟨ticket, at_⟩ := transfers.ticket mem
    obtain ⟨item, rfl, -⟩ := phase ▸ transfers.waits i ticket at_ (.inr mem)
    refine lt_of_le_of_lt (left_awaitPool ?_) (left_finish stage transfers mem item _)
    exact stage
  | unconfirmed stage | joined settled stage => simp [UploadEvent.isReport, left, join, stage]

/-- Steps, apart from reports, that can come next. -/
def Awaits (u : UploadRun) : Prop :=
  u.stage = .hashing ∨ u.stage = .starting ∨ u.stage = .completing ∨
    ∃ i ∈ u.pool.running, (∀ outcome, (u.step (.original i outcome)).isSome) ∨
      (∀ outcome, (u.step (.thumbnail i outcome)).isSome) ∨ (u.step (.finish i)).isSome

/-- An upload that has not settled waits for the service or an executor, or goes on by itself. -/
theorem Stands.awaits (h : u.Stands) :
    (∃ views, u.stage = .resolved views) ∨ (∃ fault, u.stage = .rejected fault) ∨ u.Awaits := by
  cases h with
  | early stage _ _ => exact .inr (.inr (stage.elim .inl fun stage => .inr (.inl stage)))
  | completing stage _ _ _ => exact .inr (.inr (.inr (.inr (.inl stage))))
  | resolved stage _ _ _ => exact .inl ⟨_, stage⟩
  | faulted stage _ _ => exact .inr (.inl (stage.elim (fun s => ⟨_, s⟩) fun s => ⟨_, s⟩))
  | unconfirmed stage _ _ _ => exact .inr (.inl ⟨_, stage⟩)
  | transferring stage transfers busy _ =>
    obtain ⟨i, mem⟩ := List.exists_mem_of_ne_nil _ busy
    obtain ⟨ticket, at_⟩ := transfers.ticket mem
    refine .inr (.inr (.inr (.inr (.inr ⟨i, mem, ?_⟩))))
    cases phase : u.phases i with
    | original => exact .inl fun outcome => by simp [step, at_, mem, phase]
    | thumbnail receipt => exact .inr (.inl fun outcome => by simp [step, phase, mem])
    | done result => exact .inr (.inr (by simp [step, phase, mem]))

theorem get?_byId (settled : List Upload) (id : JSString) :
    (byId settled).get? id = settled.reverse.find? fun view => view.id? = some id := by
  induction settled using List.reverseRecOn with
  | nil => rfl
  | append_singleton settled view ih =>
    rw [byId, List.foldl_append, ← byId, List.reverse_append, List.foldl_cons, List.foldl_nil]
    change _ = (view :: settled.reverse).find? _
    by_cases own : view.id? = some id
    · rw [own, List.find?_cons_of_pos (by simpa using own)]
      exact Dict.get?_set_self ..
    · rw [List.find?_cons_of_neg (by simpa using own), ← ih]
      cases other : view.id? with
      | none => rfl
      | some k => exact Dict.get?_set_ne _ _ fun same => own (other.trans (congrArg some same.symm))

variable {executors : List JSString} {concurrency : Option Int} {sources : List UploadSource}
  {es : List UploadEvent}

/-- What the steps of a run use up. -/
theorem left_run (h : u.Stands) (run : Run step Contained u es u') :
    (es.filter fun e => !e.isReport).length + u'.left ≤ u.left := by
  induction run with
  | nil => simp
  | @cons _ _ _ e _ contained hstep _ ih =>
    have less := left_step h contained hstep
    have rest := ih (stands_step h contained hstep)
    cases report : e.isReport with
    | true =>
      rw [report, if_pos rfl] at less
      rw [List.filter_cons_of_neg (by simp [report])]
      omega
    | false =>
      rw [report, if_neg Bool.false_ne_true] at less
      rw [List.filter_cons_of_pos (by simp [report]), List.length_cons]
      omega

/-- As long as each receipt names its slot and what is thrown at an original has a text:
`complete` is called at most once, with one item for each ticket that has an id, in order,
that bears a failure exactly when the original failed; only the hashing, `start` and
`complete` make the upload reject; the views are those of `complete` or else of the tickets;
and the upload comes to its end. -/
theorem upload_completes_every_slot {u : UploadRun}
    (run : Run step Contained (create executors concurrency sources) es u) :
    u.completes.length ≤ 1 ∧
      (∀ list ∈ u.completes,
        list = u.items ∧
          list.map UploadCompleteItem.id = u.tickets.filterMap (fun ticket => ticket.upload.id?) ∧
          ∀ i ticket id, u.tickets[i]? = some ticket → ticket.upload.id? = some id →
            ∃ item ∈ list, item.id = id ∧
              (item.failure.isSome = true ↔
                OriginalFailed u.executors ticket (u.originals i))) ∧
      u.stage ≠ .rejected .transfer ∧
      (∀ views, u.stage = .resolved views →
        (u.completes = [u.items] ∨
          u.completes = [] ∧ ∀ ticket ∈ u.tickets, ticket.upload.id? = none) ∧
        views = u.tickets.map fun ticket => (ticket.upload.id?.bind fun id =>
          u.settled.reverse.find? fun view => view.id? = some id).getD ticket.upload) ∧
      (es.filter fun e => !e.isReport).length ≤ 3 * sources.length + 4 ∧
      ((∃ views, u.stage = .resolved views) ∨ (∃ fault, u.stage = .rejected fault) ∨
        u.Awaits) := by
  have start := stands_create executors concurrency sources
  have stands := run.invariant Stands (fun _ _ _ h contained hstep =>
    stands_step h contained hstep) start
  have bound := left_run start run
  have slots : u.Transfers → u.pool.running = [] → ∀ list ∈ [u.items],
      list = u.items ∧
        list.map UploadCompleteItem.id = u.tickets.filterMap (fun ticket => ticket.upload.id?) ∧
        ∀ i ticket id, u.tickets[i]? = some ticket → ticket.upload.id? = some id →
          ∃ item ∈ list, item.id = id ∧
            (item.failure.isSome = true ↔
              OriginalFailed u.executors ticket (u.originals i)) := by
    intro transfers idle list mem
    obtain rfl := List.mem_singleton.mp mem
    refine ⟨rfl, transfers.ids idle, fun i ticket id at_ own => ?_⟩
    obtain ⟨item, -, slot⟩ := transfers.filled idle at_
    rw [Slot, own] at slot
    obtain ⟨item, rfl, named⟩ := Option.map_eq_some_iff.mp slot.2
    refine ⟨item, List.mem_filterMap.mpr ⟨(ticket, i), ?_, slot.1.symm⟩, named,
      failure_iff slot.1.symm⟩
    exact List.mem_zipIdx_iff_getElem?.mpr at_
  have views : ∀ ticket, viewOf u.settled ticket = (ticket.upload.id?.bind fun id =>
      u.settled.reverse.find? fun view => view.id? = some id).getD ticket.upload := by
    intro ticket
    unfold viewOf
    simp only [get?_byId]
  refine ⟨?_, ?_, ?_, ?_, by simpa [left, create] using (Nat.le_add_right _ _).trans bound,
    stands.awaits⟩
  · cases stands with
    | early _ _ none | transferring _ _ _ none | faulted _ _ none => simp [none]
    | completing _ _ _ once | unconfirmed _ _ _ once => simp [once]
    | resolved _ _ _ once => rcases once with once | ⟨once, -, -⟩ <;> simp [once]
  · cases stands with
    | early _ _ none | transferring _ _ _ none | faulted _ _ none => simp [none]
    | completing _ transfers idle once | unconfirmed _ transfers idle once =>
      rw [once]
      exact slots transfers idle
    | resolved _ transfers idle once =>
      rcases once with once | ⟨once, -, -⟩
      · rw [once]
        exact slots transfers idle
      · simp [once]
  · cases stands with
    | early stage | faulted stage => rcases stage with stage | stage <;> simp [stage]
    | transferring stage | completing stage | resolved stage | unconfirmed stage => simp [stage]
  · intro list resolved
    cases stands with
    | resolved stage transfers idle once =>
      have same := UploadStage.resolved.inj (resolved.symm.trans stage)
      refine ⟨?_, same.trans (List.map_congr_left fun ticket _ => views ticket)⟩
      rcases once with once | ⟨none, empty, -⟩
      · exact .inl once
      · refine .inr ⟨none, fun ticket mem => ?_⟩
        have ids := transfers.ids idle
        rw [empty, List.map_nil] at ids
        exact List.filterMap_eq_nil_iff.mp ids.symm ticket mem
    | early stage | faulted stage => rcases stage with stage | stage <;> simp [stage] at resolved
    | transferring stage | completing stage | unconfirmed stage => simp [stage] at resolved

def inline : JSString := lit "inline"

/-- Two files, of which the first has a thumbnail; one transfer at a time. -/
def twoFiles : UploadRun :=
  create [inline] (some 1) [⟨100, some 10⟩, ⟨200, none⟩]

def twoTickets : List UploadTicket :=
  [⟨⟨some (lit "a"), []⟩, some inline, some inline⟩, ⟨⟨some (lit "b"), []⟩, some inline, none⟩]

def refusedUpload : List UploadEvent :=
  [.hashed true, .started (some twoTickets), .original 0 (.receipt ⟨lit "a", none⟩),
    .report 0 true 5, .thumbnail 0 (.throws none), .finish 0,
    .original 1 (.throws (some (lit "refused"))), .finish 1,
    .completed (some [⟨some (lit "b"), []⟩, ⟨some (lit "a"), [(lit "url", .null)]⟩])]

theorem upload_completes_every_slot_refused :
    ∃ u, Run step Contained twoFiles refusedUpload u ∧
      u.completes = [[⟨lit "a", none⟩, ⟨lit "b", some (thrown (lit "refused"))⟩]] ∧
      u.stage = .resolved [⟨some (lit "a"), [(lit "url", .null)]⟩, ⟨some (lit "b"), []⟩] ∧
      u.completes.length ≤ 1 := by
  obtain ⟨u, run⟩ := Run.of_allGood step Contained twoFiles refusedUpload (by decide +kernel)
  refine ⟨u, run, ?_, ?_, (upload_completes_every_slot run).1⟩
  · exact run.read (a := [[⟨lit "a", none⟩, ⟨lit "b", some (thrown (lit "refused"))⟩]])
      (f := completes) (by decide +kernel)
  · exact run.read
      (a := .resolved [⟨some (lit "a"), [(lit "url", .null)]⟩, ⟨some (lit "b"), []⟩])
      (f := stage) (by decide +kernel)

/-- An executor that throws a value `String` cannot convert: the upload rejects, and
`complete` is not called for the file that was transferred. -/
theorem unprintable_error_rejects_the_upload :
    (exec step twoFiles
        [.hashed true, .started (some twoTickets), .original 0 (.receipt ⟨lit "a", none⟩),
          .thumbnail 0 (.receipt ⟨lit "a", none⟩), .finish 0, .original 1 (.throws none),
          .finish 1]).map (fun u => (u.stage, u.completes)) =
      some (.rejected .transfer, []) := by
  decide +kernel

end UploadRun

end LemonModel
