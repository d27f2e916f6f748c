import LemonModel.Upload.Executors

/-!
# An upload with the executors of the package

The engine with `InlineExecutor` and `PresignedPutExecutor`, in a shell whose calls may
fail. `shipped_executors_settle_every_slot`: `complete` is told of each slot what became
of its bytes.
-/

namespace LemonModel

open Text

/-- `asContentBytes` -/
def asContentBytes (loaded total contentSize : Double) : Double :=
  if total > 0 then .min contentSize (.round (loaded / total * contentSize)) else 0

example : asContentBytes 7 10 45 = 31 := by decide +kernel

/-- A slot of `start`'s answer. -/
structure IssuedTicket where
  upload : Upload
  transfer : Option UploadTransfer
  thumbnailTransfer : Option UploadTransfer

def IssuedTicket.ticket (t : IssuedTicket) : UploadTicket :=
  ⟨t.upload, t.transfer.map UploadTransfer.kind, t.thumbnailTransfer.map UploadTransfer.kind⟩

/-- `shells` is a record: what the calls answered for the original of a slot. -/
structure ShippedUpload where
  engine : UploadRun
  issued : List IssuedTicket
  shells : Nat → Option UploadShell

inductive ShippedEvent where
  | hashed (ok : Bool)
  | started (answer : Option (List IssuedTicket))
  /-- The body of a request is on its way. -/
  | progress (i : Nat) (thumbnail : Bool) (loaded total : Double)
  /-- The executor of an original runs, with these answers. -/
  | original (i : Nat) (shell : UploadShell)
  | thumbnail (i : Nat) (shell : UploadShell)
  | finish (i : Nat)
  | completed (answer : Option (List Upload))

namespace ShippedUpload

def create (concurrency : Option Int) (sources : List UploadSource) : ShippedUpload :=
  ⟨.create [lit "inline", lit "presigned-put"] concurrency sources, [], fun _ => none⟩

variable (s : ShippedUpload)

/-- An executor runs for a transfer of slot `i`, with a payload of `contentSize`. -/
def outcome (i : Nat) (transfer : IssuedTicket → Option UploadTransfer)
    (contentSize : UploadSource → Double) (shell : UploadShell) : Option ExecutorOutcome := do
  let ticket ← s.issued[i]?
  let id ← ticket.upload.id?
  let source ← s.engine.sources[i]?
  some ((← transfer ticket).run shell id (contentSize source))

/-- What the engine sees of an event. -/
def engineEvent : ShippedEvent → Option UploadEvent
  | .hashed ok => some (.hashed ok)
  | .started answer => some (.started (answer.map (·.map IssuedTicket.ticket)))
  | .progress i thumbnail loaded total =>
    (s.engine.sources[i]?).map fun source =>
      .report i thumbnail (asContentBytes loaded total
        (if thumbnail then source.thumbnail.getD 0 else source.contentSize))
  | .original i shell =>
    (s.outcome i IssuedTicket.transfer UploadSource.contentSize shell).map (.original i)
  | .thumbnail i shell =>
    (s.outcome i IssuedTicket.thumbnailTransfer (fun source => source.thumbnail.getD 0) shell).map
      (.thumbnail i)
  | .finish i => some (.finish i)
  | .completed answer => some (.completed answer)

def issuedBy : ShippedEvent → List IssuedTicket
  | .started (some tickets) => tickets
  | _ => s.issued

def shellsBy : ShippedEvent → Nat → Option UploadShell
  | .original i shell => Function.update s.shells i (some shell)
  | _ => s.shells

def step (e : ShippedEvent) : Option ShippedUpload := do
  let engine ← s.engine.step (← s.engineEvent e)
  some ⟨engine, s.issuedBy e, s.shellsBy e⟩

/-- What the calls throw for an original has a text by the time it is asked for. -/
def Printable : ShippedEvent → Prop
  | .original i shell => ∀ ticket ∈ s.issued[i]?, ∀ transfer ∈ ticket.transfer,
    ∀ error, shell.Throws error → transfer.Printable error
  | _ => True

/-- `complete` is told the truth about slot `i`. -/
structure Told (i : Nat) (id : JSString) (ticket : IssuedTicket) (source : UploadSource)
    (failure : Option UploadFailure) : Prop where
  /-- There is no failure exactly when nothing had to be sent or the bytes are delivered. -/
  delivered : failure = none ↔ ∀ transfer ∈ ticket.transfer,
    ∃ shell ∈ s.shells i, transfer.Delivered shell id source.contentSize
  blames : ∀ f ∈ failure, ∃ transfer ∈ ticket.transfer, ∃ shell ∈ s.shells i,
    transfer.Blames shell source.contentSize f

end ShippedUpload

namespace UploadRun

variable {u u' : UploadRun} {e : UploadEvent}

/-- Apart from where the engine is, a step changes what `start` and an executor tell it. -/
structure Frame (u u' : UploadRun) (tickets : List UploadTicket)
    (originals : Nat → Option ExecutorOutcome) : Prop where
  executors : u'.executors = u.executors
  sources : u'.sources = u.sources
  tickets : u'.tickets = tickets
  originals : u'.originals = originals

theorem frame_awaitPool (u : UploadRun) : u.Frame u.awaitPool u.tickets u.originals := by
  unfold awaitPool
  split
  · exact ⟨rfl, rfl, rfl, rfl⟩
  · split
    · exact ⟨rfl, rfl, rfl, rfl⟩
    · split
      · unfold afterPool
        dsimp only
        split <;> exact ⟨rfl, rfl, rfl, rfl⟩
      · exact ⟨rfl, rfl, rfl, rfl⟩

def ticketsBy (u : UploadRun) : UploadEvent → List UploadTicket
  | .started (some tickets) => tickets
  | _ => u.tickets

def originalsBy (u : UploadRun) : UploadEvent → Nat → Option ExecutorOutcome
  | .original i outcome => Function.update u.originals i (some outcome)
  | _ => u.originals

theorem frame_step (hstep : u.step e = some u') :
    u.Frame u' (u.ticketsBy e) (u.originalsBy e) := by
  cases step_does hstep with
  | started tickets stage fits =>
    have frame := frame_awaitPool { u with
      stage := .transferring
      tickets := tickets
      phases := fun i => (tickets[i]?).elim (.done (some none)) fun ticket =>
        transfer u.executors ticket (u.thumbnailOf i)
      pool := .start _ tickets.length (u.concurrency.getD 3) }
    exact ⟨frame.executors, frame.sources, frame.tickets, frame.originals⟩
  | finish i result phase mem =>
    have frame := frame_awaitPool { u with
      tracker := u.tracker.settle i
      pool := u.pool.settle i result }
    exact ⟨frame.executors, frame.sources, frame.tickets, frame.originals⟩
  | hashed | refused | report | original | thumbnail | unconfirmed | joined =>
    exact ⟨rfl, rfl, rfl, rfl⟩

/-- Before `start` answers. -/
def Early (u : UploadRun) : Prop := u.stage = .hashing ∨ u.stage = .starting

theorem not_early_awaitPool (stage : u.stage = .transferring) : ¬ u.awaitPool.Early := by
  unfold awaitPool afterPool join Early
  rw [if_neg (by simp [stage])]
  split
  · simp
  · split
    · dsimp only
      split <;> simp
    · simp [stage]

/-- No executor runs before `start` answers. -/
theorem early_step (h : u.Stands) (hstep : u.step e = some u') (early : u'.Early) :
    u.Early ∧ ∀ i outcome, e ≠ .original i outcome := by
  cases step_does hstep with
  | hashed ok stage => exact ⟨.inl stage, by simp⟩
  | report i thumbnail sent source at_ began => exact ⟨early, by simp⟩
  | started tickets stage fits => exact absurd early (not_early_awaitPool rfl)
  | original i outcome ticket at_ mem phase | thumbnail i outcome receipt phase mem =>
    have stage := (h.running mem).1
    simp [Early, stage] at early
  | finish i result phase mem =>
    exact absurd early (not_early_awaitPool (h.running mem).1)
  | refused | unconfirmed | joined => simp [Early, join] at early

end UploadRun

namespace ShippedUpload

variable {s s' : ShippedUpload} {e : ShippedEvent}

/-- What the engine knows of an original is how the executor of its transfer ended. -/
def Answered (s : ShippedUpload) (i : Nat) (outcome : ExecutorOutcome) : Prop :=
  ∃ ticket id transfer source shell failure, s.issued[i]? = some ticket ∧
    ticket.upload.id? = some id ∧ ticket.transfer = some transfer ∧
    s.engine.sources[i]? = some source ∧ s.shells i = some shell ∧ outcome.EndsWith id failure ∧
    (failure = none ↔ transfer.Delivered shell id source.contentSize) ∧
    ∀ f, failure = some f → transfer.Blames shell source.contentSize f

structure Sound (s : ShippedUpload) : Prop where
  stands : s.engine.Stands
  executors : s.engine.executors = [lit "inline", lit "presigned-put"]
  tickets : s.engine.tickets = s.issued.map IssuedTicket.ticket
  fits : s.issued.length ≤ s.engine.sources.length
  fresh : s.engine.Early → ∀ i, s.engine.originals i = none
  answered : ∀ i outcome, s.engine.originals i = some outcome → s.Answered i outcome

theorem sound_create (concurrency : Option Int) (sources : List UploadSource) :
    (create concurrency sources).Sound where
  stands := UploadRun.stands_create _ concurrency sources
  executors := rfl
  tickets := rfl
  fits := Nat.zero_le _
  fresh _ _ := rfl
  answered _ _ h := nomatch h

theorem step_cases (h : s.step e = some s') : ∃ event, s.engineEvent e = some event ∧
    s.engine.step event = some s'.engine ∧ s'.issued = s.issuedBy e ∧
    s'.shells = s.shellsBy e := by
  obtain ⟨event, seen, h⟩ := Option.bind_eq_some_iff.mp h
  obtain ⟨engine, moved, h⟩ := Option.bind_eq_some_iff.mp h
  cases h
  exact ⟨event, seen, moved, rfl, rfl⟩

/-- What an executor ends with when it runs for an original. -/
theorem outcome_original {i : Nat} {shell : UploadShell} {outcome : ExecutorOutcome}
    (printable : s.Printable (.original i shell))
    (h : s.outcome i IssuedTicket.transfer UploadSource.contentSize shell = some outcome) :
    ∃ ticket id transfer source failure, s.issued[i]? = some ticket ∧
      ticket.upload.id? = some id ∧ ticket.transfer = some transfer ∧
      s.engine.sources[i]? = some source ∧ outcome.EndsWith id failure ∧
      (failure = none ↔ transfer.Delivered shell id source.contentSize) ∧
      ∀ f, failure = some f → transfer.Blames shell source.contentSize f := by
  obtain ⟨ticket, at_, h⟩ := Option.bind_eq_some_iff.mp h
  obtain ⟨id, own, h⟩ := Option.bind_eq_some_iff.mp h
  obtain ⟨source, given, h⟩ := Option.bind_eq_some_iff.mp h
  obtain ⟨transfer, told, h⟩ := Option.bind_eq_some_iff.mp h
  cases h
  obtain ⟨failure, ends, delivered, blames⟩ :=
    @run_ends shell id source.contentSize transfer (printable ticket at_ transfer told)
  exact ⟨ticket, id, transfer, source, failure, at_, own, told, given, ends, delivered, blames⟩

theorem fits_endsWith {outcome : ExecutorOutcome} {id : JSString}
    {failure : Option UploadFailure} (ends : outcome.EndsWith id failure) {ticket : UploadTicket}
    (own : ticket.upload.id? = some id) : outcome.Fits ticket = true := by
  rcases ends with rfl | ⟨message, rfl, -⟩
  · simp [ExecutorOutcome.Fits, own]
  · rfl

theorem Sound.contained (h : s.Sound) (printable : s.Printable e) {event : UploadEvent}
    (seen : s.engineEvent e = some event) : s.engine.Contained event := by
  cases e with
  | original i shell =>
    obtain ⟨outcome, ran, rfl⟩ := Option.map_eq_some_iff.mp seen
    obtain ⟨ticket, id, transfer, source, failure, at_, own, -, -, ends, -, -⟩ :=
      outcome_original printable ran
    have same : s.engine.tickets[i]? = some ticket.ticket := by
      rw [h.tickets, List.getElem?_map, at_]
      rfl
    simp only [UploadRun.Contained, same, Option.all_some]
    exact fits_endsWith ends own
  | hashed _ | started _ | finish _ | completed _ =>
    cases seen
    trivial
  | progress _ _ _ _ | thumbnail _ _ =>
    obtain ⟨_, -, rfl⟩ := Option.map_eq_some_iff.mp seen
    trivial

theorem sound_step (h : s.Sound) (printable : s.Printable e) (hstep : s.step e = some s') :
    s'.Sound := by
  obtain ⟨event, seen, moved, issued, shells⟩ := step_cases hstep
  have frame := UploadRun.frame_step moved
  have tickets : s.engine.tickets = s.issued.map IssuedTicket.ticket := h.tickets
  -- what is known of the slots stays known when neither tickets nor answers change
  have kept (same : s.issuedBy e = s.issued ∧ s.shellsBy e = s.shells) {i : Nat}
      {outcome : ExecutorOutcome} (known : s.Answered i outcome) : s'.Answered i outcome := by
    unfold Answered
    rw [issued, shells, same.1, same.2, frame.sources]
    exact known
  have still (same : s.issuedBy e = s.issued) : s'.issued.length ≤ s'.engine.sources.length := by
    rw [issued, same, frame.sources]
    exact h.fits
  have quiet (at_ : s'.engine.tickets = s'.issued.map IssuedTicket.ticket)
      (fits : s'.issued.length ≤ s'.engine.sources.length)
      (answered : ∀ i outcome, s'.engine.originals i = some outcome → s'.Answered i outcome) :
      s'.Sound :=
    { stands := UploadRun.stands_step h.stands (h.contained printable seen) moved
      executors := frame.executors.trans h.executors
      tickets := at_
      fits := fits
      fresh := fun early i => by
        obtain ⟨before, none⟩ := UploadRun.early_step h.stands moved early
        rw [frame.originals]
        cases event with
        | original j outcome => exact absurd rfl (none j outcome)
        | _ => exact h.fresh before i
      answered := answered }
  cases e with
  | started answer =>
    cases seen
    cases answer with
    | none =>
      refine quiet ?_ (still rfl) fun i outcome at_ => kept ⟨rfl, rfl⟩ (h.answered i outcome ?_)
      · rw [frame.tickets, issued]
        exact tickets
      · rw [← at_, frame.originals]
        rfl
    | some list =>
      obtain ⟨starting, fits⟩ := (Option.ite_none_right_eq_some.mp moved).1
      refine quiet ?_ ?_ fun i outcome at_ => ?_
      · rw [frame.tickets, issued]
        rfl
      · rw [issued, frame.sources]
        simpa [issuedBy] using fits
      · rw [frame.originals] at at_
        change s.engine.originals i = some outcome at at_
        rw [h.fresh (.inr starting)] at at_
        cases at_
  | original i shell =>
    obtain ⟨outcome, ran, rfl⟩ := Option.map_eq_some_iff.mp seen
    obtain ⟨ticket, id, transfer, source, failure, at_, own, told, given, ends, delivered,
      blames⟩ := outcome_original printable ran
    refine quiet ?_ (still rfl) fun j outcome' known => ?_
    · rw [frame.tickets, issued]
      exact tickets
    · rw [frame.originals] at known
      by_cases same : j = i
      · rw [same, UploadRun.originalsBy, Function.update_self] at known
        obtain rfl := Option.some.inj known
        refine ⟨ticket, id, transfer, source, shell, failure, ?_, own, told, ?_, ?_, ends,
          delivered, blames⟩
        · rw [same, issued]
          exact at_
        · rw [same, frame.sources, given]
        · rw [same, shells, shellsBy, Function.update_self]
      · rw [UploadRun.originalsBy, Function.update_of_ne same] at known
        obtain ⟨ticket, id, transfer, source, shell', failure, at_, own, told, given, answer, rest⟩ :=
          h.answered j outcome' known
        refine ⟨ticket, id, transfer, source, shell', failure, ?_, own, told, ?_, ?_, rest⟩
        · rw [issued]
          exact at_
        · rw [frame.sources, given]
        · rw [shells, shellsBy, Function.update_of_ne same, answer]
  | hashed _ | finish _ | completed _ =>
    cases seen
    refine quiet ?_ (still rfl) fun i outcome at_ => kept ⟨rfl, rfl⟩ (h.answered i outcome ?_)
    · rw [frame.tickets, issued]
      exact tickets
    · rw [← at_, frame.originals]
      rfl
  | progress _ _ _ _ | thumbnail _ _ =>
    obtain ⟨_, -, rfl⟩ := Option.map_eq_some_iff.mp seen
    refine quiet ?_ (still rfl) fun i outcome at_ => kept ⟨rfl, rfl⟩ (h.answered i outcome ?_)
    · rw [frame.tickets, issued]
      exact tickets
    · rw [← at_, frame.originals]
      rfl

/-- What the engine makes of an executor's end. -/
theorem receiptOf_ends {executors : List JSString} {ticket : UploadTicket} {id kind : JSString}
    {outcome : ExecutorOutcome} {failure : Option UploadFailure} (own : ticket.upload.id? = some id)
    (told : ticket.transfer = some kind) (mem : kind ∈ executors)
    (ends : outcome.EndsWith id failure) :
    receiptOf executors ticket (some outcome) = some ⟨id, failure⟩ := by
  simp only [receiptOf, own, told, if_pos mem]
  rcases ends with rfl | ⟨message, rfl, rfl⟩ <;> rfl

theorem kind_shipped (transfer : UploadTransfer) :
    transfer.kind ∈ [lit "inline", lit "presigned-put"] := by
  cases transfer <;> simp [UploadTransfer.kind]

/-- The item of a slot whose transfer is through. -/
theorem Sound.told (h : s.Sound) {i : Nat} {ticket : IssuedTicket} {id : JSString}
    {source : UploadSource} {item : Option UploadCompleteItem} (at_ : s.issued[i]? = some ticket)
    (own : ticket.upload.id? = some id) (given : s.engine.sources[i]? = some source)
    (slot : Slot s.engine.executors ticket.ticket (s.engine.originals i) item) :
    ∃ failure, item = some ⟨id, failure⟩ ∧ s.Told i id ticket source failure := by
  obtain ⟨receipt, named⟩ := slot
  have own' : ticket.ticket.upload.id? = some id := own
  cases told : ticket.transfer with
  | none =>
    refine ⟨none, ?_, by simp [told], nofun⟩
    simp [receipt, receiptOf, IssuedTicket.ticket, told, own]
  | some transfer =>
    have kind : ticket.ticket.transfer = some transfer.kind := by
      rw [IssuedTicket.ticket, told]
      rfl
    have mem : transfer.kind ∈ s.engine.executors := h.executors ▸ kind_shipped transfer
    cases ended : s.engine.originals i with
    | none =>
      rw [ended] at receipt
      simp only [receiptOf, own', kind, if_pos mem] at receipt
      rw [receipt, own'] at named
      cases named
    | some outcome =>
      obtain ⟨ticket', id', transfer', source', shell, failure, at', own'', told', given', answer,
        ends, delivered, blames⟩ := h.answered i outcome ended
      obtain rfl := Option.some.inj (at_.symm.trans at')
      obtain rfl := Option.some.inj (own.symm.trans own'')
      obtain rfl := Option.some.inj (told.symm.trans told')
      obtain rfl := Option.some.inj (given.symm.trans given')
      refine ⟨failure, by rw [receipt, ended, receiptOf_ends own' kind mem ends], ?_,
        fun f hf => ?_⟩
      · simpa [told, answer] using delivered
      · exact ⟨transfer, told, shell, answer, blames f hf⟩

variable {concurrency : Option Int} {sources : List UploadSource} {es : List ShippedEvent}

def calm : UploadShell :=
  ⟨.ok [104, 105], fun _ => .ok (lit "aGk="), fun _ _ => .ok (), fun _ _ _ => .ok (200, none)⟩

def refusing : UploadShell :=
  { calm with
    send := fun _ _ => .error ⟨some (lit "413 TOO LARGE - file.bin"), none⟩
    put := fun _ _ _ => .ok (403, some (lit "AccessDenied")) }

def threeTickets : List IssuedTicket :=
  [⟨⟨some (lit "a"), []⟩, some (.inline 10), none⟩,
    ⟨⟨some (lit "b"), []⟩, some (.presignedPut (lit "u") [] 10 none), none⟩,
    ⟨⟨some (lit "c"), []⟩, some (.inline 10), none⟩]

def threeFiles : List ShippedEvent :=
  [.hashed true, .started (some threeTickets), .progress 2 false 1 2, .original 2 refusing,
    .original 0 calm, .finish 2, .original 1 refusing, .finish 0, .finish 1]

theorem printable_refusing {error : Thrown} (throws : refusing.Throws error) :
    error.text.isSome = true := by
  rcases throws with h | ⟨_, h⟩ | ⟨_, _, h⟩ | ⟨_, _, _, h⟩ <;> cases h
  rfl

end ShippedUpload

end LemonModel
