import LemonModel.Upload.Engine

/-!
# The progress bar

Over any reports and settlements of the files the bar of a batch goes forward and ends at 1,
exactly when the totals of the batch have a finite sum.
-/

namespace LemonModel

open Text

namespace UploadFileProgress

variable {f f' : UploadFileProgress}

/-- What is known of a file is within its bounds. -/
structure Bounded (f : UploadFileProgress) : Prop where
  nonneg : 0 ≤ f.total
  within : ∀ sent, f.sent = some sent → 0 ≤ sent ∧ sent ≤ f.total

theorem bounded_create {total : Double} (number : total ≠ .nan) : (create total).Bounded :=
  ⟨(Double.max_number Double.zero_number number).1, nofun⟩

theorem Bounded.reported (h : f.Bounded) : 0 ≤ f.reported ∧ f.reported ≤ f.total := by
  unfold UploadFileProgress.reported
  cases sent : f.sent with
  | none => exact ⟨Double.le_refl Double.zero_number, h.nonneg⟩
  | some s => exact h.within s sent

theorem Bounded.counted (h : f.Bounded) : 0 ≤ f.counted ∧ f.counted ≤ f.total := by
  unfold UploadFileProgress.counted
  split
  · exact ⟨h.nonneg, Double.le_refl (Double.number_of_le h.nonneg).2⟩
  · exact h.reported

theorem Bounded.next (h : f.Bounded) {sent : Double} (number : sent ≠ .nan) :
    f.reported ≤ f.next sent ∧ f.next sent ≤ f.total := by
  have reported := Double.max_number number (Double.number_of_le h.reported.1).2
  have total := (Double.number_of_le h.nonneg).2
  exact ⟨Double.le_min h.reported.2 reported.2,
    (Double.min_number total (Double.number_of_le reported.2).2).1⟩

/-- Progress of a file. -/
structure Advances (f f' : UploadFileProgress) : Prop where
  bounded : f'.Bounded
  total : f'.total = f.total
  counted : f.counted ≤ f'.counted
  settled : f.settled = true → f'.settled = true

theorem Bounded.advances (h : f.Bounded) : f.Advances f :=
  ⟨h, rfl, Double.le_refl (Double.number_of_le h.counted.1).2, id⟩

theorem Bounded.report (h : f.Bounded) {sent : Double} (number : sent ≠ .nan) :
    f.Advances { f with sent := some (f.next sent) } := by
  obtain ⟨above, within⟩ := h.next number
  refine ⟨⟨h.nonneg, ?_⟩, rfl, ?_, id⟩
  · rintro _ ⟨⟩
    exact ⟨Double.le_trans h.reported.1 above, within⟩
  · unfold UploadFileProgress.counted
    dsimp only
    split
    · exact Double.le_refl (Double.number_of_le h.nonneg).2
    · exact above

theorem Bounded.settle (h : f.Bounded) : f.Advances { f with settled := true } := by
  refine ⟨⟨h.nonneg, h.within⟩, rfl, ?_, fun _ => rfl⟩
  have whole : ({ f with settled := true } : UploadFileProgress).counted = f.total := if_pos rfl
  rw [whole]
  exact h.counted.2

end UploadFileProgress

namespace UploadProgressTracker

variable {t t' : UploadProgressTracker} {totals : List Double}

open UploadFileProgress

/-- The sum of the totals, with the negative ones as 0, does not overflow. -/
def SumIsFinite (totals : List Double) : Prop := (Double.sum (totals.map (.max 0))).IsFinite

instance (totals : List Double) : Decidable (SumIsFinite totals) :=
  inferInstanceAs (Decidable (Double.sum _).IsFinite)

/-! ## Snapshots -/

theorem counted_le_total {files : List UploadFileProgress} (h : ∀ f ∈ files, f.Bounded) :
    0 ≤ Double.sum (files.map counted) ∧
      Double.sum (files.map counted) ≤ Double.sum (files.map total) := by
  apply Double.sum_mono
  rw [List.forall₂_map_left_iff, List.forall₂_map_right_iff, List.forall₂_same]
  exact fun f mem => (h f mem).counted

theorem sum_advances {files files' : List UploadFileProgress} (bounded : ∀ f ∈ files, f.Bounded)
    (h : List.Forall₂ Advances files files') :
    Double.sum (files.map counted) ≤ Double.sum (files'.map counted) := by
  apply (Double.sum_mono _).2
  rw [List.forall₂_map_left_iff, List.forall₂_map_right_iff]
  induction h with
  | nil => exact .nil
  | cons first _ ih =>
    rw [List.forall_mem_cons] at bounded
    exact .cons ⟨bounded.1.counted.1, first.counted⟩ (ih bounded.2)

theorem filter_advances {files files' : List UploadFileProgress}
    (h : List.Forall₂ Advances files files') :
    files'.map total = files.map total ∧
      (files.filter settled).length ≤ (files'.filter settled).length := by
  induction h with
  | nil => exact ⟨rfl, le_refl _⟩
  | @cons f f' files files' first _ ih =>
    obtain ⟨totals, some_⟩ := ih
    refine ⟨?_, ?_⟩
    · rw [List.map_cons, List.map_cons, first.total, totals]
    · cases was : f.settled with
      | true =>
        rw [List.filter_cons_of_pos was, List.filter_cons_of_pos (first.settled was)]
        exact Nat.succ_le_succ some_
      | false =>
        rw [List.filter_cons_of_neg (by simp [was])]
        exact some_.trans ((List.sublist_cons_self f' files').filter _).length_le

/-- The bar of `b` is at least as long as that of `a`. -/
structure Behind (a b : UploadBatchProgress) : Prop where
  sentBytes : a.sentBytes ≤ b.sentBytes
  ratio : a.ratio ≤ b.ratio

theorem Behind.trans {a b c : UploadBatchProgress} (h : Behind a b) (h' : Behind b c) :
    Behind a c :=
  ⟨Double.le_trans h.sentBytes h'.sentBytes, Double.le_trans h.ratio h'.ratio⟩

/-- A snapshot of a batch of these totals: every part is within its bounds, and the bar is
full once everything is settled. -/
structure Proper (totals : List Double) (s : UploadBatchProgress) : Prop where
  files : s.files.map total = totals.map (.max 0)
  within : ∀ f ∈ s.files, ∀ sent, f.sent = some sent → 0 ≤ sent ∧ sent ≤ f.total
  totalBytes : s.totalBytes = Double.sum (totals.map (.max 0))
  nonneg : 0 ≤ s.ratio
  le_one : s.ratio ≤ 1
  full : (∀ f ∈ s.files, f.settled = true) → s.ratio = 1

/-- The totals of the tracker are those it was made with. -/
structure Of (totals : List Double) (t : UploadProgressTracker) : Prop where
  bounded : ∀ f ∈ t.files, f.Bounded
  files : t.files.map total = totals.map (.max 0)
  totalBytes : t.totalBytes = Double.sum (totals.map (.max 0))

theorem Of.whole (h : t.Of totals) : t.totalBytes = Double.sum (t.files.map total) := by
  rw [h.files, h.totalBytes]

theorem of_create (numbers : ∀ total ∈ totals, total ≠ .nan) : (create totals).Of totals := by
  have files : (totals.map UploadFileProgress.create).map total = totals.map (.max 0) := by
    rw [List.map_map]
    rfl
  refine ⟨?_, files, ?_⟩
  · simp only [create, List.mem_map]
    rintro _ ⟨total, mem, rfl⟩
    exact bounded_create (numbers total mem)
  · rw [← files]
    rfl

/-- One file advances. -/
theorem Of.advance (h : t.Of totals) {index : Nat} {f f' : UploadFileProgress}
    (at_ : t.files[index]? = some f) (advances : f.Advances f') :
    ({ t with files := t.files.set index f' } : UploadProgressTracker).Of totals ∧
      List.Forall₂ Advances t.files (t.files.set index f') := by
  have files : List.Forall₂ Advances t.files (t.files.set index f') := by
    rw [List.forall₂_iff_get]
    refine ⟨(List.length_set ..).symm, fun i hi hi' => ?_⟩
    simp only [List.get_eq_getElem, List.getElem_set]
    split
    · rename_i same
      subst same
      rw [List.getElem?_eq_getElem hi] at at_
      obtain rfl := Option.some.inj at_
      exact advances
    · exact (h.bounded _ (List.getElem_mem hi)).advances
  refine ⟨⟨fun g mem => ?_, ?_, h.totalBytes⟩, files⟩
  · rcases List.mem_or_eq_of_mem_set mem with mem | rfl
    · exact h.bounded g mem
    · exact advances.bounded
  · show (t.files.set index f').map total = _
    rw [(filter_advances files).1, h.files]

theorem files_settle (t : UploadProgressTracker) (i j : Nat) :
    (t.settle i).files[j]? =
      (t.files[j]?).map fun f => if j = i then { f with settled := true } else f := by
  unfold UploadProgressTracker.settle
  split
  · rename_i outside
    by_cases own : j = i
    · rw [own, outside]
      rfl
    · simp [own]
  · rename_i file at_
    split
    · rename_i settled
      by_cases own : j = i
      · rw [own, at_]
        cases file
        simp_all
      · simp [own]
    · show (t.files.set i { file with settled := true })[j]? = _
      rw [List.getElem?_set]
      by_cases own : i = j
      · subst own
        rw [if_pos rfl, if_pos (List.getElem?_eq_some_iff.mp at_).1, at_]
        simp
      · simp [own, Ne.symm own]

theorem files_settles (t : UploadProgressTracker) (indices : List Nat) (j : Nat) :
    (indices.foldl UploadProgressTracker.settle t).files[j]? =
      (t.files[j]?).map fun f => if j ∈ indices then { f with settled := true } else f := by
  induction indices generalizing t with
  | nil => simp
  | cons i indices ih =>
    rw [List.foldl_cons, ih, files_settle, Option.map_map]
    congr 1
    funext f
    by_cases own : j = i
    · simp [own]
    · simp [own]

/-- Where every file is settled, all bytes count as sent. -/
theorem Of.sent (h : t.Of totals) (all : ∀ f ∈ t.files, f.settled = true) :
    t.snapshot.sentBytes = t.totalBytes := by
  have every : t.files.map counted = t.files.map total :=
    List.map_congr_left fun f hf => if_pos (all f hf)
  rw [h.whole, ← every]
  rfl

section

variable (finite : SumIsFinite totals)

include finite

/-- The ratio of a batch that has bytes. -/
theorem Of.ratio_of_pos (h : t.Of totals) (pos : 0 < t.totalBytes) :
    0 ≤ t.snapshot.ratio ∧ t.snapshot.ratio ≤ 1 := by
  have finite' : t.totalBytes.IsFinite := h.totalBytes ▸ finite
  obtain ⟨nonneg, le⟩ := counted_le_total h.bounded
  rw [← h.whole] at le
  rw [← Double.div_self pos finite']
  unfold snapshot
  dsimp only
  rw [if_pos pos]
  exact Double.div_mono nonneg le finite' pos finite'

theorem proper_snapshot (h : t.Of totals) : Proper totals t.snapshot := by
  have finite' : t.totalBytes.IsFinite := h.totalBytes ▸ finite
  have counted := List.length_filter_le settled t.files
  have ratio : 0 ≤ t.snapshot.ratio ∧ t.snapshot.ratio ≤ 1 := by
    by_cases pos : 0 < t.totalBytes
    · exact h.ratio_of_pos finite pos
    · unfold snapshot
      dsimp only
      rw [if_neg pos]
      split
      · rw [Double.one_eq]
        refine ⟨Double.ofRat_nonneg (by positivity), Double.ofRat_mono (by positivity) ?_⟩
        exact div_le_one_of_le₀ (by exact_mod_cast counted) (by positivity)
      · exact ⟨Double.zero_le_one, Double.le_refl (Double.number_of_le Double.zero_le_one).2⟩
  refine ⟨h.files, fun f mem => (h.bounded f mem).within, h.totalBytes, ratio.1, ratio.2,
    fun all => ?_⟩
  have whole := h.sent all
  have every : t.files.filter settled = t.files := List.filter_eq_self.mpr all
  unfold snapshot at whole ⊢
  dsimp only at whole ⊢
  split
  · rename_i pos
    rw [whole, Double.div_self pos finite']
  · split
    · rename_i some_
      have apart : (t.files.length : ℚ) ≠ 0 := by exact_mod_cast some_.ne'
      rw [every, div_self apart, Double.one_eq]
    · rfl

theorem behind_snapshot (h : t.Of totals) (h' : t'.Of totals)
    (files : List.Forall₂ Advances t.files t'.files) : Behind t.snapshot t'.snapshot := by
  have sum := sum_advances h.bounded files
  have settled := (filter_advances files).2
  have length := files.length_eq
  have whole : t'.totalBytes = t.totalBytes := h'.totalBytes.trans h.totalBytes.symm
  refine ⟨sum, ?_⟩
  unfold snapshot
  dsimp only
  rw [whole, ← length]
  split
  · rename_i pos
    have finite' : t.totalBytes.IsFinite := h.totalBytes ▸ finite
    obtain ⟨nonneg, -⟩ := counted_le_total h.bounded
    obtain ⟨nonneg', le⟩ := counted_le_total h'.bounded
    rw [← h'.whole, whole] at le
    exact (Double.div_mono nonneg sum (Double.finite_of_le nonneg' le finite') pos finite').2
  · split
    · apply Double.ofRat_mono (by positivity)
      apply div_le_div_of_nonneg_right
      · exact_mod_cast settled
      · positivity
    · exact Double.le_refl (Double.number_of_le Double.zero_le_one).2

end

/-! ## Runs -/

/-- What the engine and the executors ask of a tracker. -/
inductive TrackerEvent where
  | report (index : Nat) (sent : Double)
  | settle (index : Nat)
  | publish

/-- What is reported is a number. -/
def TrackerEvent.IsNumber : TrackerEvent → Prop
  | .report _ sent => sent ≠ .nan
  | _ => True

instance : DecidablePred TrackerEvent.IsNumber
  | .report _ sent => inferInstanceAs (Decidable (sent ≠ .nan))
  | .settle _ | .publish => isTrue trivial

def handle (t : UploadProgressTracker) : TrackerEvent → UploadProgressTracker
  | .report index sent => t.sink index sent
  | .settle index => t.settle index
  | .publish => t.publish

/-- What is published goes forward, up to where the tracker is. -/
structure Forward (totals : List Double) (t : UploadProgressTracker) : Prop where
  of : t.Of totals
  sorted : SumIsFinite totals → t.published.Pairwise fun later earlier => Behind earlier later
  reached : SumIsFinite totals → ∀ s ∈ t.published, Behind s t.snapshot
  proper : SumIsFinite totals → ∀ s ∈ t.published, Proper totals s

theorem forward_create (numbers : ∀ total ∈ totals, total ≠ .nan) :
    Forward totals (create totals) :=
  ⟨of_create numbers, fun _ => .nil, by simp [create], by simp [create]⟩

theorem Forward.publish (h : Forward totals t) : Forward totals t.publish := by
  have of : t.publish.Of totals := ⟨h.of.bounded, h.of.files, h.of.totalBytes⟩
  refine ⟨of, fun finite => List.pairwise_cons.mpr ⟨h.reached finite, h.sorted finite⟩, ?_, ?_⟩
  · intro finite s hs
    rcases List.mem_cons.mp hs with rfl | hs
    · exact behind_snapshot finite h.of of
        (List.forall₂_same.mpr fun f mem => (h.of.bounded f mem).advances)
    · exact h.reached finite s hs
  · intro finite s hs
    rcases List.mem_cons.mp hs with rfl | hs
    · exact proper_snapshot finite h.of
    · exact h.proper finite s hs

/-- One file advances and the snapshot is published. -/
theorem Forward.advance (h : Forward totals t) {index : Nat} {f f' : UploadFileProgress}
    (at_ : t.files[index]? = some f) (advances : f.Advances f') :
    Forward totals (UploadProgressTracker.publish { t with files := t.files.set index f' }) := by
  obtain ⟨of, files⟩ := h.of.advance at_ advances
  apply Forward.publish
  refine ⟨of, h.sorted, fun finite s hs => ?_, h.proper⟩
  exact (h.reached finite s hs).trans (behind_snapshot finite h.of of files)

theorem Forward.sink (h : Forward totals t) (index : Nat) {sent : Double}
    (number : sent ≠ .nan) : Forward totals (t.sink index sent) := by
  unfold UploadProgressTracker.sink
  split
  · exact h
  · rename_i file at_
    split
    · exact h
    · split
      · exact h
      · exact h.advance at_ ((h.of.bounded file (List.mem_of_getElem? at_)).report number)

theorem Forward.settle (h : Forward totals t) (index : Nat) : Forward totals (t.settle index) := by
  unfold UploadProgressTracker.settle
  split
  · exact h
  · rename_i file at_
    split
    · exact h
    · exact h.advance at_ (h.of.bounded file (List.mem_of_getElem? at_)).settle

theorem Forward.settles (h : Forward totals t) (indices : List Nat) :
    Forward totals (indices.foldl UploadProgressTracker.settle t) := by
  induction indices generalizing t with
  | nil => exact h
  | cons index indices ih => exact ih (h.settle index)

/-- **One event.** -/
theorem Forward.handle (h : Forward totals t) {e : TrackerEvent} (number : e.IsNumber) :
    Forward totals (t.handle e) := by
  cases e with
  | report index sent => exact h.sink index number
  | settle index => exact h.settle index
  | publish => exact h.publish

theorem Forward.run (h : Forward totals t) {events : List TrackerEvent}
    (numbers : ∀ e ∈ events, e.IsNumber) :
    Forward totals (events.foldl UploadProgressTracker.handle t) := by
  induction events generalizing t with
  | nil => exact h
  | cons e events ih =>
    rw [List.forall_mem_cons] at numbers
    exact ih (h.handle numbers.1) numbers.2

/-- What a batch of these totals promises: what is published goes forward, and every snapshot
is within its bounds and full at the end. -/
structure Steady (totals : List Double) (t : UploadProgressTracker) : Prop where
  forward : t.published.Pairwise fun later earlier =>
    earlier.sentBytes ≤ later.sentBytes ∧ earlier.ratio ≤ later.ratio
  proper : ∀ s, s ∈ t.published ∨ s = t.snapshot → Proper totals s

theorem Forward.steady (h : Forward totals t) (finite : SumIsFinite totals) :
    Steady totals t where
  forward := (h.sorted finite).imp fun behind => ⟨behind.sentBytes, behind.ratio⟩
  proper s hs := by
    rcases hs with hs | rfl
    · exact h.proper finite s hs
    · exact proper_snapshot finite h.of

/-- The full bar of a batch whose sum overflows has no ratio. -/
theorem Of.ratio_of_overflow (h : t.Of totals) (infinite : ¬ SumIsFinite totals)
    (all : ∀ f ∈ t.files, f.settled = true) : t.snapshot.ratio = .nan := by
  have whole : t.totalBytes = .infinity false := by
    obtain ⟨nonneg, le⟩ := counted_le_total h.bounded
    rw [← h.whole] at le
    rcases Double.nonneg_iff.mp (Double.le_trans nonneg le) with ⟨q, hq, finite, -⟩ | top
    · rw [SumIsFinite, ← h.totalBytes, finite] at infinite
      exact absurd trivial infinite
    · exact top
  have sent := h.sent all
  unfold snapshot at sent ⊢
  dsimp only at sent ⊢
  rw [sent, whole, if_pos (by decide +kernel)]
  rfl

/-- **The bar never goes back**, whatever numbers are reported and whatever is settled, in
whatever order, exactly when the sum of the totals does not overflow. -/
theorem bar_never_goes_back {totals : List Double} (finite : ∀ total ∈ totals, total.IsFinite) :
    (∀ events : List TrackerEvent, (∀ e ∈ events, e.IsNumber) →
        Steady totals (events.foldl handle (create totals))) ↔
      SumIsFinite totals := by
  have numbers := fun total mem => Double.number_of_finite (finite total mem)
  constructor
  · intro steady
    by_contra infinite
    -- settle every file
    let indices := List.range totals.length
    let t := indices.foldl UploadProgressTracker.settle (create totals)
    have full : t = (indices.map TrackerEvent.settle).foldl handle (create totals) := by
      rw [List.foldl_map]
      rfl
    have all : ∀ f ∈ t.snapshot.files, f.settled = true := by
      intro f mem
      obtain ⟨j, at_⟩ := List.mem_iff_getElem?.mp mem
      obtain ⟨g, was, rfl⟩ := Option.map_eq_some_iff.mp ((files_settles _ _ _).symm.trans at_)
      have inside : j ∈ indices := by
        rw [List.mem_range]
        simpa [create] using (List.getElem?_eq_some_iff.mp was).1
      rw [if_pos inside]
    have proper := (steady (indices.map .settle) (by simp [TrackerEvent.IsNumber])).proper
      t.snapshot (.inr (by rw [full]))
    have nan := ((forward_create numbers).settles indices).of.ratio_of_overflow infinite all
    rw [proper.full all, Double.one_eq] at nan
    exact Double.ofRat_number nan
  · intro sum events reports
    exact ((forward_create numbers).run reports).steady sum

/-- A report above the total, one that goes back, and one after its file is settled. -/
def someReports : List TrackerEvent :=
  [.publish, .report 0 50, .settle 1, .report 0 20, .report 1 7, .report 0 1000, .settle 0]

theorem bar_never_goes_back_two :
    SumIsFinite [100, 200] ∧ Steady [100, 200] (someReports.foldl handle (create [100, 200])) ∧
      (someReports.foldl handle (create [100, 200])).published.map UploadBatchProgress.sentBytes =
        [300, 300, 250, 50, 0] := by
  have sum : SumIsFinite [100, 200] := by decide +kernel
  refine ⟨sum, ?_, by decide +kernel⟩
  exact (bar_never_goes_back (by decide +kernel)).mpr sum someReports (by decide +kernel)

/-- Two files of 10³⁰⁸ bytes. -/
def hugeFiles : List Double := [.ofRat (10 ^ 308), .ofRat (10 ^ 308)]

/-- Once both are settled the ratio is not a number. -/
theorem huge_files_have_no_ratio :
    (∀ total ∈ hugeFiles, total.IsFinite) ∧
      ([.settle 0, .settle 1].foldl handle (create hugeFiles)).snapshot.ratio = .nan ∧
      ¬ Steady hugeFiles ([.settle 0, .settle 1].foldl handle (create hugeFiles)) := by
  have nan : ([.settle 0, .settle 1].foldl handle (create hugeFiles)).snapshot.ratio = .nan := by
    decide +kernel
  have full : ∀ f ∈ ([.settle 0, .settle 1].foldl handle (create hugeFiles)).snapshot.files,
      f.settled = true := by
    decide +kernel
  refine ⟨by decide +kernel, nan, fun steady => ?_⟩
  have one := (steady.proper _ (.inr rfl)).full full
  rw [nan] at one
  exact absurd one (by decide +kernel)

end UploadProgressTracker

end LemonModel
