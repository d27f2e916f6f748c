import LemonModel.Upload.Bar
import LemonModel.Upload.Shipped

/-!
# What the bar shows

The bar beside the transfers. `bar_follows_the_slots`: the snapshot shown last has a file
settled exactly when its transfer has returned, and counts no byte of a thumbnail before
the original is through.
-/

namespace LemonModel

open Text

/-- The sizes are finite. -/
structure UploadSource.IsFinite (s : UploadSource) : Prop where
  contentSize : s.contentSize.IsFinite
  thumbnail : (s.thumbnail.getD 0).IsFinite

theorem UploadSource.IsFinite.size {s : UploadSource} (h : s.IsFinite) : s.size ≠ .nan :=
  Double.add_number h.contentSize (Double.number_of_finite h.thumbnail)

/-- What a request can say of its body: `loaded` of `total` bytes. -/
structure WireProgress (loaded total : Double) : Prop where
  nonneg : 0 ≤ loaded
  within : loaded ≤ total
  finite : total.IsFinite

instance (loaded total : Double) : Decidable (WireProgress loaded total) :=
  decidable_of_iff (0 ≤ loaded ∧ loaded ≤ total ∧ total.IsFinite)
    ⟨fun h => ⟨h.1, h.2.1, h.2.2⟩, fun h => ⟨h.nonneg, h.within, h.finite⟩⟩

theorem asContentBytes_le {loaded total contentSize : Double} (wire : WireProgress loaded total)
    (finite : contentSize.IsFinite) :
    asContentBytes loaded total contentSize ≤ .max 0 contentSize := by
  have size := Double.number_of_finite finite
  obtain ⟨zero, above⟩ := Double.max_number Double.zero_number size
  unfold asContentBytes
  split
  · rename_i pos
    have share := Double.div_mono wire.nonneg wire.within wire.finite pos wire.finite
    rw [Double.div_self pos wire.finite] at share
    have share' : (loaded / total).IsFinite :=
      Double.finite_of_le share.1 share.2 (by decide +kernel)
    have number := Double.round_number (Double.mul_number share' finite)
    exact Double.le_trans (Double.min_number size number).1 above
  · exact zero

theorem Pool.mem_started_settle {α : Type} (p : Pool α) (i : Nat) (result : Option α) {j : Nat}
    (mem : j ∈ p.started) : j ∈ (p.settle i result).started := by
  cases result with
  | none => exact mem
  | some result =>
    unfold settle take
    dsimp only
    split
    · exact mem
    · exact List.mem_append_left _ mem

namespace UploadProgressTracker

variable {t : UploadProgressTracker}

/-- What was shown last is how things are. -/
def Shown (t : UploadProgressTracker) : Prop := t.published.head? = some t.snapshot

theorem shown_publish (t : UploadProgressTracker) : t.publish.Shown := rfl

theorem Shown.settle (h : t.Shown) (i : Nat) : (t.settle i).Shown := by
  unfold UploadProgressTracker.settle
  split
  · exact h
  · split
    · exact h
    · exact shown_publish _

theorem Shown.sink (h : t.Shown) (i : Nat) (sent : Double) : (t.sink i sent).Shown := by
  unfold UploadProgressTracker.sink
  split
  · exact h
  · split
    · exact h
    · split
      · exact h
      · exact shown_publish _

theorem files_sink (t : UploadProgressTracker) (i j : Nat) (sent : Double) :
    (t.sink i sent).files[j]? = (t.files[j]?).map fun f =>
      if j = i ∧ f.settled = false then { f with sent := some (f.next sent) } else f := by
  unfold UploadProgressTracker.sink
  split
  · rename_i outside
    by_cases own : j = i
    · rw [own, outside]
      rfl
    · simp [own]
  · rename_i file at_
    have kept (same : file.settled = true ∨ { file with sent := some (file.next sent) } = file) :
        t.files[j]? = (t.files[j]?).map fun f =>
          if j = i ∧ f.settled = false then { f with sent := some (f.next sent) } else f := by
      by_cases own : j = i
      · rw [own, at_]
        rcases same with same | same <;> simp [same]
      · simp [own]
    split
    · rename_i settled
      exact kept (.inl settled)
    · rename_i open_
      split
      · rename_i told
        obtain ⟨old, was, same⟩ := (Option.any_eq_true ..).mp told
        have same := (of_decide_eq_true same).1
        exact kept (.inr (by rw [same, ← was]))
      · show (t.files.set i { file with sent := some (file.next sent) })[j]? = _
        rw [List.getElem?_set]
        by_cases own : i = j
        · subst own
          rw [if_pos rfl, if_pos (List.getElem?_eq_some_iff.mp at_).1, at_]
          simp [open_]
        · simp [own, Ne.symm own]

theorem Shown.settles (h : t.Shown) (indices : List Nat) :
    (indices.foldl UploadProgressTracker.settle t).Shown := by
  induction indices generalizing t with
  | nil => exact h
  | cons i indices ih => exact ih (h.settle i)

end UploadProgressTracker

/-! ## The bar beside the transfers -/

namespace UploadRun

variable {u u' : UploadRun} {e : UploadEvent} {sources : List UploadSource}

/-- The upload has let go of slot `i`: its transfer has returned, or all have. -/
def Returned (u : UploadRun) (i : Nat) : Prop :=
  match u.stage with
  | .hashing | .starting | .rejected .hashing | .rejected .start => False
  | .transferring | .rejected .transfer =>
    i < u.tickets.length ∧ i < u.pool.next ∧ i ∉ u.pool.running
  | .completing | .resolved _ | .rejected .complete => True

/-- No byte of the thumbnail of slot `i` is on its way yet. -/
def Before (u : UploadRun) (i : Nat) : Prop := i ∉ u.pool.started ∨ u.phases i = .original

/-- An executor reports numbers, of an original not more than there is to send, of a thumbnail
only once the original is through. -/
def InTurn (u : UploadRun) : UploadEvent → Prop
  | .report i thumbnail sent => sent ≠ .nan ∧ (thumbnail = true → u.phases i ≠ .original) ∧
    (thumbnail = false → ∀ source ∈ u.sources[i]?, sent ≤ .max 0 source.contentSize)
  | _ => True

/-- No transfer has begun. -/
def Unbegun (u : UploadRun) : Prop :=
  u.stage = .hashing ∨ u.stage = .starting ∨ u.stage = .rejected .hashing ∨
    u.stage = .rejected .start

theorem not_returned (h : u.Unbegun) (i : Nat) : ¬ u.Returned i := by
  rcases h with stage | stage | stage | stage <;> simp [Returned, stage]

/-- What the bar shows of slot `i`. -/
structure Slotted (u : UploadRun) (i : Nat) (source : UploadSource) (f : UploadFileProgress) :
    Prop where
  settled : f.settled = true ↔ u.Returned i
  began : f.sent.isSome → i ∈ u.pool.started
  early : u.Before i → f.reported ≤ .max 0 source.contentSize

structure Filled (sources : List UploadSource) (u : UploadRun) : Prop where
  given : u.sources = sources
  finite : ∀ source ∈ sources, source.IsFinite
  forward : UploadProgressTracker.Forward (sources.map UploadSource.size) u.tracker
  shown : u.tracker.Shown
  fresh : u.Unbegun → u.pool.started = []
  slots : ∀ i source f, sources[i]? = some source → u.tracker.files[i]? = some f →
    u.Slotted i source f

theorem content_nonneg {source : UploadSource} (finite : source.IsFinite) :
    0 ≤ Double.max 0 source.contentSize :=
  (Double.max_number Double.zero_number (Double.number_of_finite finite.contentSize)).1

theorem filled_create (executors : List JSString) (concurrency : Option Int)
    (finite : ∀ source ∈ sources, source.IsFinite) :
    (create executors concurrency sources).Filled sources where
  given := rfl
  finite := finite
  forward := by
    refine (UploadProgressTracker.forward_create fun total mem => ?_).publish
    obtain ⟨source, given, rfl⟩ := List.mem_map.mp mem
    exact (finite source given).size
  shown := UploadProgressTracker.shown_publish _
  fresh _ := rfl
  slots i source f given at_ := by
    have content := content_nonneg (finite source (List.mem_of_getElem? given))
    obtain ⟨-, -, rfl⟩ : ∃ source, sources[i]? = some source ∧
        UploadFileProgress.create source.size = f := by
      simpa [create, UploadProgressTracker.publish, UploadProgressTracker.create] using at_
    exact ⟨by simp [UploadFileProgress.create, Returned, create],
      by simp [UploadFileProgress.create],
      fun _ => by simpa [UploadFileProgress.create, UploadFileProgress.reported] using content⟩

/-- A step that leaves the tracker and the pool alone. -/
theorem Filled.keep (h : u.Filled sources)
    (same : u'.tracker = u.tracker ∧ u'.pool = u.pool ∧ u'.sources = u.sources)
    (unbegun : u'.Unbegun → u.Unbegun) (returned : ∀ i, u'.Returned i ↔ u.Returned i)
    (before : ∀ i, u'.Before i → u.Before i) : u'.Filled sources where
  given := same.2.2.trans h.given
  finite := h.finite
  forward := same.1 ▸ h.forward
  shown := same.1 ▸ h.shown
  fresh now := same.2.1 ▸ h.fresh (unbegun now)
  slots i source f given at_ := by
    rw [same.1] at at_
    have slot := h.slots i source f given at_
    exact ⟨slot.settled.trans (returned i).symm, same.2.1.symm ▸ slot.began,
      fun now => slot.early (before i now)⟩

/-- All files are settled. -/
theorem Filled.settles (h : u.Filled sources) (stage : ∀ i, u'.Returned i) (begun : ¬ u'.Unbegun)
    (same : u'.pool = u.pool ∧ u'.phases = u.phases ∧ u'.sources = u.sources)
    (tracker : u'.tracker =
      (List.range u.sources.length).foldl UploadProgressTracker.settle u.tracker) :
    u'.Filled sources where
  given := same.2.2.trans h.given
  finite := h.finite
  forward := tracker ▸ h.forward.settles _
  shown := tracker ▸ h.shown.settles _
  fresh none := absurd none begun
  slots i source f given at_ := by
    rw [tracker, UploadProgressTracker.files_settles] at at_
    obtain ⟨f, was, rfl⟩ := Option.map_eq_some_iff.mp at_
    have inside : i ∈ List.range u.sources.length := by
      rw [List.mem_range, h.given]
      exact (List.getElem?_eq_some_iff.mp given).1
    have slot := h.slots i source f given was
    rw [if_pos inside]
    refine ⟨⟨fun _ => stage i, fun _ => rfl⟩, ?_, ?_⟩
    · rw [same.1]
      exact slot.began
    · unfold Before
      rw [same.1, same.2.1]
      exact slot.early

theorem filled_awaitPool (h : u.Filled sources) (stage : u.stage = .transferring)
    (sound : u.pool.failed = false) : u.awaitPool.Filled sources := by
  unfold awaitPool
  rw [if_neg (by simp [stage]), if_neg (by simp [sound])]
  split
  · unfold afterPool
    dsimp only
    split
    · exact h.settles (fun _ => trivial) (by simp [Unbegun, join]) ⟨rfl, rfl, rfl⟩ rfl
    · exact h.settles (fun _ => trivial) (by simp [Unbegun]) ⟨rfl, rfl, rfl⟩ rfl
  · exact h

/-- The tickets have come, and the workers have taken their first. -/
theorem Filled.start (h : u.Filled sources) (stage : u.stage = .starting)
    (tickets : List UploadTicket) :
    { u with
      stage := .transferring
      tickets := tickets
      phases := fun i => (tickets[i]?).elim (.done (some none)) fun ticket =>
        transfer u.executors ticket (u.thumbnailOf i)
      pool := .start _ tickets.length (u.concurrency.getD 3) }.Filled sources where
  given := h.given
  finite := h.finite
  forward := h.forward
  shown := h.shown
  fresh unbegun := by simp [Unbegun] at unbegun
  slots i source f given at_ := by
    have slot := h.slots i source f given at_
    have unbegun : u.Unbegun := .inr (.inl stage)
    have silent : f.sent = none := by
      by_contra some
      have began := slot.began (Option.isSome_iff_ne_none.mpr some)
      simp [h.fresh unbegun] at began
    have content := content_nonneg (h.finite source (List.mem_of_getElem? given))
    refine ⟨?_, by simp [silent],
      fun _ => by simpa [UploadFileProgress.reported, silent] using content⟩
    rw [slot.settled]
    refine ⟨fun returned => absurd returned (not_returned unbegun i), fun returned => ?_⟩
    -- a slot that the pool has let go of has a result, and there is none yet
    obtain ⟨inside, before, out⟩ := returned
    have sound := Pool.sound_start (Option UploadCompleteItem) tickets.length
      (u.concurrency.getD 3)
    have filled := (sound.filled i ((Pool.count_start _ _).symm ▸ inside)).mpr ⟨before, out⟩
    rw [Pool.results_start, List.getElem?_replicate, if_pos inside] at filled
    cases filled

theorem Filled.report (h : u.Filled sources) {i : Nat} {thumbnail : Bool} {sent : Double}
    {source : UploadSource} (given : u.sources[i]? = some source) (began : i ∈ u.pool.started)
    (inTurn : u.InTurn (.report i thumbnail sent)) :
    { u with
      tracker := u.tracker.sink i
        (if thumbnail then source.contentSize + sent else sent) }.Filled sources where
  given := h.given
  finite := h.finite
  forward := by
    apply h.forward.sink i
    split
    · have finite := h.finite source (h.given ▸ List.mem_of_getElem? given)
      exact Double.add_number finite.contentSize inTurn.1
    · exact inTurn.1
  shown := h.shown.sink i _
  fresh := h.fresh
  slots j other f given' at_ := by
    rw [UploadProgressTracker.files_sink] at at_
    obtain ⟨f, was, rfl⟩ := Option.map_eq_some_iff.mp at_
    have slot := h.slots j other f given' was
    by_cases own : j = i ∧ f.settled = false
    · rw [if_pos own]
      obtain ⟨rfl, -⟩ := own
      rw [← h.given, given] at given'
      obtain rfl := Option.some.inj given'
      refine ⟨slot.settled, fun _ => began, fun early => ?_⟩
      have original : u.phases j = .original := early.resolve_left (not_not_intro began)
      have own : thumbnail = false := by
        cases thumbnail with
        | true => exact absurd original (inTurn.2.1 rfl)
        | false => rfl
      have le := inTurn.2.2 own source given
      have most := Double.max_le le (slot.early early)
      have total := (h.forward.of.bounded f (List.mem_of_getElem? was)).nonneg
      rw [own, if_neg Bool.false_ne_true]
      exact Double.le_trans (Double.min_number (Double.number_of_le total).2
        (Double.number_of_le most).1).2 most
    · rw [if_neg own]
      exact ⟨slot.settled, slot.began, slot.early⟩

theorem returned_finish (stage : u.stage = .transferring) (transfers : u.Transfers) {i : Nat}
    (mem : i ∈ u.pool.running) (item : Option UploadCompleteItem)
    (tracker : UploadProgressTracker) (j : Nat) :
    { u with tracker := tracker, pool := u.pool.settle i (some item) }.Returned j ↔
      u.Returned j ∨ j = i := by
  obtain ⟨before, inside⟩ := transfers.pool.below i mem
  unfold Returned
  dsimp only
  rw [stage]
  dsimp only
  rw [Pool.next_settle]
  constructor
  · rintro ⟨hj, lt, out⟩
    rw [transfers.pool.mem_running_settle i item (transfers.count.symm ▸ hj)] at out
    by_cases own : j = i
    · exact .inr own
    · exact .inl ⟨hj, by omega, fun mem => out (.inl ⟨mem, own⟩)⟩
  · intro h
    have hj : j < u.tickets.length := by
      rcases h with ⟨hj, -, -⟩ | rfl
      · exact hj
      · exact transfers.count ▸ inside
    rw [transfers.pool.mem_running_settle i item (transfers.count.symm ▸ hj)]
    rcases h with ⟨-, lt, out⟩ | rfl
    · exact ⟨hj, by omega, fun h => h.elim (fun h => out h.1) (by omega)⟩
    · exact ⟨hj, by omega, fun h => h.elim (fun h => h.2 rfl) (by omega)⟩

theorem Filled.finish (h : u.Filled sources) (stage : u.stage = .transferring)
    (transfers : u.Transfers) {i : Nat} (mem : i ∈ u.pool.running)
    (item : Option UploadCompleteItem) :
    { u with
      tracker := u.tracker.settle i
      pool := u.pool.settle i (some item) }.Filled sources where
  given := h.given
  finite := h.finite
  forward := h.forward.settle i
  shown := h.shown.settle i
  fresh unbegun := by simp [Unbegun, stage] at unbegun
  slots j source f given at_ := by
    rw [UploadProgressTracker.files_settle] at at_
    obtain ⟨f, was, rfl⟩ := Option.map_eq_some_iff.mp at_
    have slot := h.slots j source f given was
    have kept := fun mem => Pool.mem_started_settle u.pool i (some item) (j := j) mem
    have early : { u with
        tracker := u.tracker.settle i
        pool := u.pool.settle i (some item) }.Before j → u.Before j :=
      Or.imp_left fun out mem => out (kept mem)
    have returned := returned_finish stage transfers mem item (u.tracker.settle i) j
    split
    · rename_i own
      exact ⟨⟨fun _ => returned.mpr (.inr own), fun _ => rfl⟩, fun sent => kept (slot.began sent),
        fun before => slot.early (early before)⟩
    · rename_i other
      refine ⟨slot.settled.trans ?_, fun sent => kept (slot.began sent),
        fun before => slot.early (early before)⟩
      rw [returned]
      exact ⟨.inl, fun h => h.resolve_right other⟩

/-- **One step.** -/
theorem filled_step (stands : u.Stands) (contained : u.Contained e) (h : u.Filled sources)
    (inTurn : u.InTurn e) (hstep : u.step e = some u') : u'.Filled sources := by
  cases step_does hstep with
  | hashed ok stage =>
    refine h.keep ⟨rfl, rfl, rfl⟩ (fun _ => .inl stage) (fun i => ?_) (fun _ before => before)
    cases ok <;> simp [Returned, stage]
  | refused stage =>
    refine h.keep ⟨rfl, rfl, rfl⟩ (fun _ => .inr (.inl stage)) (fun i => ?_)
      (fun _ before => before)
    simp [Returned, stage]
  | started tickets stage fits =>
    exact filled_awaitPool (h.start stage tickets) rfl
      (Pool.sound_start (Option UploadCompleteItem) _ _).failed
  | report i thumbnail sent source given began => exact h.report given began inTurn
  | original i outcome ticket at_ mem phase =>
    have stage := (stands.running mem).1
    refine h.keep ⟨rfl, rfl, rfl⟩ (by simp [Unbegun, stage]) (fun _ => Iff.rfl)
      (fun j before => ?_)
    by_cases own : j = i
    · exact .inr (own ▸ phase)
    · simpa [Before, own] using before
  | thumbnail i outcome receipt phase mem =>
    have stage := (stands.running mem).1
    refine h.keep ⟨rfl, rfl, rfl⟩ (by simp [Unbegun, stage]) (fun _ => Iff.rfl)
      (fun j before => ?_)
    by_cases own : j = i
    · subst own
      exact .inl (by simpa [Before] using before)
    · simpa [Before, own] using before
  | finish i result phase mem =>
    obtain ⟨stage, transfers, -⟩ := stands.running mem
    obtain ⟨ticket, at_⟩ := transfers.ticket mem
    obtain ⟨item, rfl, -⟩ := phase ▸ transfers.waits i ticket at_ (.inr mem)
    exact filled_awaitPool (h.finish stage transfers mem item) stage
      (transfers.finish mem phase u.tracker).pool.failed
  | unconfirmed stage =>
    refine h.keep ⟨rfl, rfl, rfl⟩ (by simp [Unbegun]) (fun i => ?_) (fun _ before => before)
    simp [Returned, stage]
  | joined settled stage =>
    refine h.keep ⟨rfl, rfl, rfl⟩ (by simp [Unbegun, join]) (fun i => ?_)
      (fun _ before => before)
    simp [Returned, stage, join]

end UploadRun

/-! ## What is shown -/

/-- The bytes of each file, of its original and of its thumbnail. -/
def fileBytes (sizes : List (ℕ × ℕ)) : List ℕ := sizes.map fun size => size.1 + size.2

/-- The sizes are whole numbers of bytes, 2⁵³ at most in all. -/
structure InBytes (sources : List UploadSource) (sizes : List (ℕ × ℕ)) : Prop where
  whole : List.Forall₂ (fun source size => source.contentSize = Double.ofRat (size.1 : ℕ) ∧
    source.thumbnail.getD 0 = Double.ofRat (size.2 : ℕ)) sources sizes
  few : (fileBytes sizes).sum ≤ 2 ^ 53

namespace InBytes

variable {sources : List UploadSource} {sizes : List (ℕ × ℕ)} {t : UploadProgressTracker}

theorem totals (h : InBytes sources sizes) : (sources.map UploadSource.size).map (Double.max 0) =
    (fileBytes sizes).map fun n : ℕ => Double.ofRat n := by
  obtain ⟨whole, few⟩ := h
  unfold fileBytes at few ⊢
  induction whole with
  | nil => rfl
  | @cons source size _ _ first _ ih =>
    rw [List.map_cons, List.sum_cons] at few
    simp only [List.map_cons]
    rw [ih (by omega), UploadSource.size, first.1, first.2, Double.add_natCast (by omega),
      Double.max_of_nonneg (Double.ofRat_nonneg (Nat.cast_nonneg _))]

theorem totalBytes (h : InBytes sources sizes) (of : t.Of (sources.map UploadSource.size)) :
    t.totalBytes = .ofRat ((fileBytes sizes).sum : ℕ) := by
  rw [of.totalBytes, h.totals, Double.sum_natCast h.few]

theorem sum_set_lt {l : List ℕ} {i m n : ℕ} (at_ : l[i]? = some n) (less : m < n) :
    (l.set i m).sum < l.sum := by
  induction l generalizing i with
  | nil => cases at_
  | cons k l ih =>
    cases i with
    | zero =>
      obtain rfl := Option.some.inj at_
      simpa using less
    | succ i => simpa using ih at_

/-- Of a file that lacks the bytes of its thumbnail no more than the original's are counted. -/
theorem sent_le (h : InBytes sources sizes) (of : t.Of (sources.map UploadSource.size)) {i : Nat}
    {source : UploadSource} {f : UploadFileProgress} (given : sources[i]? = some source)
    (at_ : t.files[i]? = some f) (short : f.counted ≤ .max 0 source.contentSize)
    (thumbnail : 0 < source.thumbnail.getD 0) :
    ∃ m < (fileBytes sizes).sum, 0 ≤ t.snapshot.sentBytes ∧
      t.snapshot.sentBytes ≤ .ofRat (m : ℕ) := by
  have totals := of.files.trans h.totals
  have length : t.files.length = (fileBytes sizes).length := by
    simpa using congrArg List.length totals
  obtain ⟨size, at', content, preview⟩ : ∃ size, sizes[i]? = some size ∧
      source.contentSize = .ofRat (size.1 : ℕ) ∧ source.thumbnail.getD 0 = .ofRat (size.2 : ℕ) := by
    obtain ⟨inside, rfl⟩ := List.getElem?_eq_some_iff.mp given
    have inside' : i < sizes.length := h.whole.length_eq ▸ inside
    exact ⟨_, List.getElem?_eq_getElem inside',
      (List.forall₂_iff_get.mp h.whole).2 i inside inside'⟩
  rw [content, Double.max_of_nonneg (Double.ofRat_nonneg (Nat.cast_nonneg _))] at short
  have pos : size.2 ≠ 0 := by
    intro zero
    rw [preview, zero, Nat.cast_zero, ← Double.zero_eq_ofRat] at thumbnail
    exact absurd thumbnail (by decide +kernel)
  have less : ((fileBytes sizes).set i size.1).sum < (fileBytes sizes).sum :=
    sum_set_lt (n := size.1 + size.2) (by simp [fileBytes, at']) (by omega)
  refine ⟨_, less, ?_⟩
  rw [← Double.sum_natCast (less.le.trans h.few)]
  apply Double.sum_mono
  rw [List.forall₂_map_left_iff, List.forall₂_map_right_iff, List.forall₂_iff_get]
  refine ⟨by simp [length], fun j hj hj' => ?_⟩
  have counted := (of.bounded _ (List.getElem_mem hj)).counted
  simp only [List.get_eq_getElem, List.getElem_set]
  refine ⟨counted.1, ?_⟩
  split
  · rename_i same
    subst same
    obtain ⟨_, rfl⟩ := List.getElem?_eq_some_iff.mp at_
    exact short
  · have both := congrArg (·[j]?) totals
    have total : t.files[j].total = .ofRat ((fileBytes sizes).get ⟨j, length ▸ hj⟩ : ℕ) := by
      simpa [List.getElem?_eq_getElem hj, List.getElem?_eq_getElem (length ▸ hj)] using both
    exact total ▸ counted.2

theorem ratio_lt_one (h : InBytes sources sizes) (of : t.Of (sources.map UploadSource.size))
    {m : ℕ} (less : m < (fileBytes sizes).sum) (nonneg : 0 ≤ t.snapshot.sentBytes)
    (sent : t.snapshot.sentBytes ≤ .ofRat m) : t.snapshot.ratio < 1 := by
  have whole := h.totalBytes of
  obtain ⟨hn, all⟩ := Double.ofRat_natCast h.few
  obtain ⟨hm, part⟩ := Double.ofRat_natCast (less.le.trans h.few)
  have positive : 0 < t.totalBytes := by
    rw [whole, all, Double.zero_eq, Double.finite_lt_finite]
    exact_mod_cast Nat.zero_lt_of_lt less
  have share := Double.div_mono nonneg sent (part ▸ trivial) positive (whole ▸ all ▸ trivial)
  unfold UploadProgressTracker.snapshot at share ⊢
  dsimp only at share ⊢
  rw [if_pos positive]
  exact Double.lt_of_le_of_lt share.2 (whole ▸ Double.div_lt_one less h.few)

end InBytes

/-- A slot whose file is neither settled nor silent is being transferred. -/
theorem UploadRun.Filled.running {u : UploadRun} {sources : List UploadSource}
    (h : u.Filled sources) (stands : u.Stands) {i : Nat} (began : i ∈ u.pool.started)
    (open_ : ¬ u.Returned i) : i ∈ u.pool.running := by
  have none (unbegun : u.Unbegun) : i ∈ u.pool.running := by
    simp [h.fresh unbegun] at began
  cases stands with
  | early stage => exact none (stage.imp_right .inl)
  | faulted stage => exact none (.inr (.inr stage))
  | transferring stage transfers =>
    by_contra out
    rw [transfers.pool.started, List.mem_range, transfers.count, Nat.lt_min] at began
    apply open_
    unfold UploadRun.Returned
    rw [stage]
    exact ⟨began.2, began.1, out⟩
  | completing stage | resolved stage | unconfirmed stage =>
    exact absurd (by simp [UploadRun.Returned, stage]) open_

namespace ShippedUpload

variable {s s' : ShippedUpload} {e : ShippedEvent} {sources : List UploadSource}
  {concurrency : Option Int} {es : List ShippedEvent}

/-- A request says how many of its bytes are through, and the executor of a thumbnail runs once
that of the original is through. -/
def InTurn (s : ShippedUpload) : ShippedEvent → Prop
  | .progress i thumbnail loaded total =>
    (thumbnail = true → s.engine.phases i ≠ .original) ∧ WireProgress loaded total
  | _ => True

instance : ∀ (s : ShippedUpload) (e : ShippedEvent), Decidable (s.InTurn e)
  | s, .progress i thumbnail loaded total => inferInstanceAs (Decidable
    ((thumbnail = true → s.engine.phases i ≠ .original) ∧ WireProgress loaded total))
  | _, .hashed _ | _, .started _ | _, .original .. | _, .thumbnail .. | _, .finish _
  | _, .completed _ => isTrue trivial

theorem inTurn_event {event : UploadEvent} (finite : ∀ source ∈ s.engine.sources, source.IsFinite)
    (inTurn : s.InTurn e) (seen : s.engineEvent e = some event) : s.engine.InTurn event := by
  cases e with
  | progress i thumbnail loaded total =>
    obtain ⟨source, given, rfl⟩ := Option.map_eq_some_iff.mp seen
    obtain ⟨content, preview⟩ := finite source (List.mem_of_getElem? given)
    refine ⟨?_, inTurn.1, fun original source' given' => ?_⟩
    · split
      · exact (Double.number_of_le (asContentBytes_le inTurn.2 preview)).1
      · exact (Double.number_of_le (asContentBytes_le inTurn.2 content)).1
    · obtain rfl := Option.some.inj (given.symm.trans given')
      rw [original, if_neg Bool.false_ne_true]
      exact asContentBytes_le inTurn.2 content
  | original i shell | thumbnail i shell =>
    obtain ⟨_, -, rfl⟩ := Option.map_eq_some_iff.mp seen
    trivial
  | hashed _ | started _ | finish _ | completed _ =>
    cases seen
    trivial

/-- **The bar follows the slots.** In every run the snapshot that was shown last has a file
settled exactly when the upload has let go of its slot, and one that shows bytes before that
is of a transfer that runs now. While the original of a slot is not through, its file shows
no more than the original's bytes, and a thumbnail that is still to come keeps the bar from
being full. As long as the sum of the sizes does not overflow, the bar never goes back, and
is full once every slot has returned. -/
theorem bar_follows_the_slots (finite : ∀ source ∈ sources, source.IsFinite)
    (run : Run step (fun s e => s.Printable e ∧ s.InTurn e) (create concurrency sources) es s) :
    ∃ shown, s.engine.tracker.published.head? = some shown ∧
      shown.files.length = sources.length ∧
      (UploadProgressTracker.SumIsFinite (sources.map UploadSource.size) →
        UploadProgressTracker.Steady (sources.map UploadSource.size) s.engine.tracker ∧
          ((∀ i < sources.length, s.engine.Returned i) → shown.ratio = 1)) ∧
      ∀ i source f, sources[i]? = some source → shown.files[i]? = some f →
        (f.settled = true ↔ s.engine.Returned i) ∧
        (f.sent.isSome → f.settled = false → i ∈ s.engine.pool.running) ∧
        (s.engine.Before i → f.reported ≤ .max 0 source.contentSize ∧
          (f.settled = false → (∃ sizes, InBytes sources sizes) →
            0 < source.thumbnail.getD 0 → shown.ratio < 1)) := by
  have kept := run.invariant (fun s => s.Sound ∧ s.engine.Filled sources)
    (fun s e s' h good hstep => by
      obtain ⟨event, seen, moved, -, -⟩ := step_cases hstep
      have finite' : ∀ source ∈ s.engine.sources, source.IsFinite := h.2.given.symm ▸ finite
      exact ⟨sound_step h.1 good.1 hstep, UploadRun.filled_step h.1.stands
        (h.1.contained good.1 seen) h.2 (inTurn_event finite' good.2 seen) moved⟩)
    ⟨sound_create concurrency sources, UploadRun.filled_create _ concurrency finite⟩
  obtain ⟨sound, filled⟩ := kept
  have length : s.engine.tracker.files.length = sources.length := by
    simpa using congrArg List.length filled.forward.of.files
  refine ⟨s.engine.tracker.snapshot, filled.shown, length, fun sum => ?_,
    fun i source f given at_ => ?_⟩
  · have steady := filled.forward.steady sum
    refine ⟨steady, fun all => (steady.proper _ (.inr rfl)).full fun f mem => ?_⟩
    obtain ⟨i, at_⟩ := List.mem_iff_getElem?.mp mem
    have inside : i < sources.length := length ▸ (List.getElem?_eq_some_iff.mp at_).1
    exact (filled.slots i _ f (List.getElem?_eq_getElem inside) at_).settled.mpr (all i inside)
  · have slot := filled.slots i source f given at_
    refine ⟨slot.settled, fun sent unsettled => ?_, fun before => ⟨slot.early before, ?_⟩⟩
    · apply filled.running sound.stands (slot.began sent)
      rw [← slot.settled, unsettled]
      exact Bool.false_ne_true
    · rintro unsettled ⟨sizes, bytes⟩ thumbnail
      have counted : f.counted = f.reported := if_neg (by simp [unsettled])
      obtain ⟨m, less, nonneg, sent⟩ := bytes.sent_le filled.forward.of given at_
        (counted ▸ slot.early before) thumbnail
      exact bytes.ratio_lt_one filled.forward.of less nonneg sent

/-! A file with a preview: the original is through, and half of the preview. -/

def pictures : ShippedUpload := create none [⟨6, some 4⟩]

def halfOfThePreview : List ShippedEvent :=
  [.hashed true,
    .started (some [⟨⟨some (lit "a"), []⟩, some (.inline 10), some (.inline 10)⟩]),
    .progress 0 false 3 3, .original 0 calm, .progress 0 true 1 2]

theorem bar_follows_the_slots_preview :
    ∃ s shown, exec step pictures halfOfThePreview = some s ∧
      s.engine.tracker.published.head? = some shown ∧ shown.ratio = .ofRat (4 / 5) ∧
      0 ∈ s.engine.pool.running ∧ UploadProgressTracker.Steady [10] s.engine.tracker := by
  obtain ⟨s, turns⟩ := Run.of_allGood step InTurn pictures halfOfThePreview (by decide +kernel)
  have run : Run step (fun s e => s.Printable e ∧ s.InTurn e) pictures halfOfThePreview s := by
    have possible := turns.exec_eq
    rw [run_iff_everywhere possible] at turns ⊢
    refine fun before e t within reached => ⟨?_, turns before e t within reached⟩
    have mem : e ∈ halfOfThePreview := within.subset (by simp)
    simp only [halfOfThePreview, List.mem_cons, List.not_mem_nil, or_false] at mem
    rcases mem with rfl | rfl | rfl | rfl | rfl
    · exact trivial
    · exact trivial
    · exact trivial
    · intro ticket _ transfer _ error throws
      rcases throws with h | ⟨_, h⟩ | ⟨_, _, h⟩ | ⟨_, _, _, h⟩ <;> cases h
    · exact trivial
  have finite : ∀ source ∈ [(⟨6, some 4⟩ : UploadSource)], source.IsFinite := by
    rw [List.forall_mem_singleton]
    exact ⟨by decide +kernel, by decide +kernel⟩
  obtain ⟨shown, head, -, sum, slots⟩ := bar_follows_the_slots finite run
  have total : [(⟨6, some 4⟩ : UploadSource)].map UploadSource.size = [10] := by decide +kernel
  rw [total] at sum
  have ratio := run.read (a := some (.ofRat (4 / 5)))
    (f := fun s => s.engine.tracker.published.head?.map UploadBatchProgress.ratio)
    (by decide +kernel)
  have file := run.read (a := some (some (8 : Double), false))
    (f := fun s => (s.engine.tracker.published.head?.bind fun shown => shown.files[0]?).map
      fun f => (f.sent, f.settled)) (by decide +kernel)
  rw [head] at ratio file
  obtain ⟨f, at_, same⟩ := Option.map_eq_some_iff.mp file
  obtain ⟨sent, unsettled⟩ := Prod.mk.inj same
  refine ⟨s, shown, run.exec_eq, head, Option.some.inj ratio, ?_, (sum (by decide +kernel)).1⟩
  exact (slots 0 _ f rfl at_).2.1 (by rw [sent]; rfl) unsettled

end ShippedUpload

end LemonModel
