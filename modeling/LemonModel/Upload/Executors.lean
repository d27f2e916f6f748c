import LemonModel.Text.Decimal
import LemonModel.Upload.Slots

/-!
# The executors

`InlineExecutor` and `PresignedPutExecutor`, on the calls a shell provides, and how they
put failures into the words of the contract.
-/

namespace LemonModel

open Text

/-! ## Failures of the API -/

def isUpper (u : UInt16) : Bool := unit 'A' ≤ u && u ≤ unit 'Z'

def isLabel (u : UInt16) : Bool := isUpper u || u == unit ' '

/-- `[A-Z ]*?` up to the first ` - `, and what is behind that. -/
def scanLabel : JSString → Option (JSString × JSString)
  | [] => none
  | u :: s =>
    if (lit " - ").isPrefixOf (u :: s) then some ([], s.drop 2)
    else if isLabel u then (scanLabel s).map fun p => (u :: p.1, p.2)
    else none

/-- `API_ERROR.exec(message)`: the three groups. -/
def API_ERROR (message : JSString) : Option (JSString × JSString × JSString) :=
  let digits := message.takeWhile isDigit
  if digits = [] ∨ 3 < digits.length then none
  else
    match message.dropWhile isDigit with
    | space :: first :: rest =>
      if space = unit ' ' ∧ isUpper first then
        (scanLabel rest).map fun p => (digits, first :: p.1, p.2)
      else none
    | _ => none

def codeOfApiStatus : Nat → UploadFailureCode
  | 0 => lit "network"
  | 400 => lit "invalid"
  | 404 => lit "not-found"
  | 406 => lit "not-acceptable"
  | 409 => lit "conflict"
  | 410 => lit "expired"
  | 413 => lit "too-large"
  | 415 => lit "unsupported"
  | _ => lit "unknown"

/-- `asApiFailure`, of the text of what was thrown. -/
def asApiFailure (message : JSString) : UploadFailure :=
  match API_ERROR message with
  | none => ⟨lit "api", lit "unknown", none, none, some message⟩
  | some (digits, label, detail) =>
    ⟨lit "api", codeOfApiStatus (digitsValue digits), some (digitsValue digits), some label,
      some detail⟩

/-- The error convention: `<status> <LABEL> - <detail>`. -/
structure ApiError where
  status : JSString
  label : JSString
  detail : JSString
  digits : ∀ u ∈ status, isDigit u = true
  short : 1 ≤ status.length ∧ status.length ≤ 3
  upper : label.head?.any isUpper = true
  letters : ∀ u ∈ label, isLabel u = true

def ApiError.text (e : ApiError) : JSString :=
  e.status ++ unit ' ' :: (e.label ++ lit " - " ++ e.detail)

theorem scanLabel_label {label : JSString} (letters : ∀ u ∈ label, isLabel u = true)
    (detail : JSString) : scanLabel (label ++ lit " - " ++ detail) = some (label, detail) := by
  induction label with
  | nil =>
    have cut : lit " - " = [unit ' ', unit '-', unit ' '] := by decide
    simp [scanLabel, cut]
  | cons u label ih =>
    have rest := ih fun v hv => letters v (List.mem_cons_of_mem _ hv)
    -- the dash would be the second unit, and that is of the label or a blank
    have notYet : (lit " - ").isPrefixOf (u :: (label ++ lit " - " ++ detail)) = false := by
      have cut : lit " - " = [unit ' ', unit '-', unit ' '] := by decide
      have dash : isLabel (unit '-') = false := by decide
      cases label with
      | nil => simp +decide [cut, List.isPrefixOf]
      | cons v label =>
        have letter := letters v (by simp)
        have other : (unit '-' == v) = false := by
          rw [beq_eq_false_iff_ne]
          rintro rfl
          rw [dash] at letter
          cases letter
        simp [cut, List.isPrefixOf, other]
    simp only [List.cons_append, scanLabel, notYet, Bool.false_eq_true, ↓reduceIte,
      letters u List.mem_cons_self, rest, Option.map_some]

theorem scanLabel_some {s label detail : JSString} (h : scanLabel s = some (label, detail)) :
    s = label ++ lit " - " ++ detail ∧ ∀ u ∈ label, isLabel u = true := by
  induction s generalizing label with
  | nil => cases h
  | cons u s ih =>
    rw [scanLabel] at h
    split at h
    · rename_i here
      obtain ⟨rfl, rfl⟩ := Prod.mk.inj (Option.some.inj h)
      obtain ⟨rest, cut⟩ := List.isPrefixOf_iff_prefix.mp here
      have dash : lit " - " = [unit ' ', unit '-', unit ' '] := by decide
      rw [dash, List.cons_append, List.cons.injEq] at cut
      obtain ⟨rfl, rfl⟩ := cut
      simp [dash]
    · split at h
      · rename_i letter
        obtain ⟨⟨label', detail'⟩, found, eq⟩ := Option.map_eq_some_iff.mp h
        obtain ⟨rfl, rfl⟩ := Prod.mk.inj eq
        obtain ⟨rfl, letters⟩ := ih found
        exact ⟨rfl, List.forall_mem_cons.mpr ⟨letter, letters⟩⟩
      · cases h

namespace ApiError

variable (e : ApiError)

theorem exec_text : API_ERROR e.text = some (e.status, e.label, e.detail) := by
  have blank : isDigit (unit ' ') = false := by decide
  have taken : e.text.takeWhile isDigit = e.status := by
    rw [text, List.takeWhile_append_of_pos e.digits, List.takeWhile_cons_of_neg (by simp [blank]),
      List.append_nil]
  have left : e.text.dropWhile isDigit = unit ' ' :: (e.label ++ lit " - " ++ e.detail) := by
    rw [text, List.dropWhile_append_of_pos e.digits, List.dropWhile_cons_of_neg (by simp [blank])]
  obtain ⟨some, few⟩ := e.short
  have inRange : ¬ (e.status = [] ∨ 3 < e.status.length) := by
    rintro (none | many)
    · simp [none] at some
    · omega
  unfold API_ERROR
  simp only [taken, left, if_neg inRange]
  obtain ⟨first, label, starts⟩ : ∃ first label, e.label = first :: label := by
    cases label : e.label with
    | nil => simpa [label] using e.upper
    | cons first rest => exact ⟨first, rest, rfl⟩
  have upper : isUpper first = true := by simpa [starts] using e.upper
  have letters : ∀ u ∈ label, isLabel u = true := fun u hu =>
    e.letters u (starts ▸ List.mem_cons_of_mem _ hu)
  simp only [starts, List.cons_append, upper, and_self, ↓reduceIte]
  rw [scanLabel_label letters]
  rfl

/-- Nothing else is taken for an error of the API. -/
theorem of_exec {message digits label detail : JSString}
    (h : API_ERROR message = some (digits, label, detail)) :
    ∃ e : ApiError, e.text = message ∧ e.status = digits ∧ e.label = label ∧ e.detail = detail := by
  unfold API_ERROR at h
  simp only at h
  split at h
  · cases h
  · rename_i inRange
    rw [not_or, not_lt] at inRange
    split at h
    · rename_i space first rest left
      split at h
      · rename_i starts
        obtain ⟨⟨label', detail'⟩, found, eq⟩ := Option.map_eq_some_iff.mp h
        obtain ⟨rfl, groups⟩ := Prod.mk.inj eq
        obtain ⟨rfl, rfl⟩ := Prod.mk.inj groups
        obtain ⟨rfl, letters⟩ := scanLabel_some found
        obtain ⟨rfl, upper⟩ := starts
        refine ⟨⟨_, first :: label', detail', List.all_eq_true.mp List.all_takeWhile,
          ⟨List.length_pos_of_ne_nil inRange.1, inRange.2⟩, upper, ?_⟩, ?_, rfl, rfl, rfl⟩
        · exact List.forall_mem_cons.mpr ⟨by rw [isLabel, upper, Bool.true_or], letters⟩
        · rw [text]
          conv_rhs => rw [← List.takeWhile_append_dropWhile (p := isDigit) (l := message), left]
          rfl
      · cases h
    · cases h

end ApiError

/-- **The error convention is read back.** A message in the convention yields its status,
its label and its detail, and any other message is kept as it is. -/
theorem asApiFailure_reads_the_convention :
    (∀ e : ApiError, asApiFailure e.text =
      ⟨lit "api", codeOfApiStatus (digitsValue e.status), some (digitsValue e.status),
        some e.label, some e.detail⟩) ∧
      ∀ message, (∀ e : ApiError, e.text ≠ message) → asApiFailure message =
        ⟨lit "api", lit "unknown", none, none, some message⟩ := by
  refine ⟨fun e => ?_, fun message other => ?_⟩
  · unfold asApiFailure
    rw [e.exec_text]
  · unfold asApiFailure
    cases found : API_ERROR message with
    | none => rfl
    | some groups =>
      obtain ⟨digits, label, detail⟩ := groups
      obtain ⟨e, text, -⟩ := ApiError.of_exec found
      exact absurd text (other e)

/-! ## Failures of the storage -/

/-- `STORAGE_CODES[code]`: an inherited property is defined, and is no code of the contract. -/
def storageCode? (code : JSString) : Option UploadFailureCode :=
  let known : List (JSString × UploadFailureCode) :=
    [(lit "SignatureDoesNotMatch", lit "signature"), (lit "AccessDenied", lit "expired"),
      (lit "ExpiredToken", lit "expired"), (lit "BadDigest", lit "checksum"),
      (lit "XAmzContentSHA256Mismatch", lit "checksum"), (lit "EntityTooLarge", lit "too-large"),
      (lit "RequestTimeout", lit "network")]
  match known.lookup code with
  | some known => some known
  | none => if code ∈ objectPrototype then some (.inherited code) else none

def codeOfStorageStatus : Nat → UploadFailureCode
  | 0 => lit "network"
  | 403 => lit "signature"
  | 413 => lit "too-large"
  | _ => lit "unknown"

def asStorageFailure (status : Nat) (code : Option JSString) : UploadFailure :=
  let known := (code.filter (· ≠ [])).bind storageCode?
  ⟨lit "storage", known.getD (codeOfStorageStatus status), some status, code, none⟩

example : (asStorageFailure 403 (some (lit "toString"))).code = .inherited (lit "toString") := by
  decide

def tooLarge : UploadFailure := ⟨lit "client", lit "too-large", none, none, none⟩

/-! ## The executors -/

/-- What an executor is told of a transfer. -/
inductive UploadTransfer where
  | inline (maxBytes : Double)
  | presignedPut (url : JSString) (headers : List (JSString × JSString)) (maxBytes : Double)
    (expiresAt : Option Double)

def UploadTransfer.kind : UploadTransfer → JSString
  | .inline _ => lit "inline"
  | .presignedPut .. => lit "presigned-put"

/-- A value that was thrown: its text, or else that of what `String` throws instead. -/
structure Thrown where
  text : Option JSString
  instead : Option JSString

/-- What the calls of a shell answer: reading the bytes, encoding them, `send` and `put`. -/
structure UploadShell where
  bytes : Except Thrown (List UInt8)
  toBase64 : List UInt8 → Except Thrown JSString
  send : JSString → JSString → Except Thrown Unit
  put : JSString → List (JSString × JSString) → List UInt8 → Except Thrown (Nat × Option JSString)

/-- `InlineExecutor.run` -/
def InlineExecutor.run (shell : UploadShell) (id : JSString) (maxBytes contentSize : Double) :
    ExecutorOutcome :=
  if contentSize > maxBytes then .receipt ⟨id, some tooLarge⟩
  else
    match (do shell.send id (← shell.toBase64 (← shell.bytes)) : Except Thrown Unit) with
    | .ok _ => .receipt ⟨id, none⟩
    | .error error =>
      match error.text with
      | some message => .receipt ⟨id, some (asApiFailure message)⟩
      | none => .throws error.instead

/-- 412: the object already exists under this key; the server decides at `complete`. -/
def putSucceeded (status : Nat) : Bool := (200 ≤ status ∧ status < 300) ∨ status = 412

/-- `PresignedPutExecutor.run` -/
def PresignedPutExecutor.run (shell : UploadShell) (id url : JSString)
    (headers : List (JSString × JSString)) : ExecutorOutcome :=
  match (do shell.put url headers (← shell.bytes) : Except Thrown (Nat × Option JSString)) with
  | .ok (status, code) =>
    if putSucceeded status then .receipt ⟨id, none⟩
    else .receipt ⟨id, some (asStorageFailure status code)⟩
  | .error error => .throws error.text

/-- The executor of the kind. -/
def UploadTransfer.run (shell : UploadShell) (id : JSString) (contentSize : Double) :
    UploadTransfer → ExecutorOutcome
  | .inline maxBytes => InlineExecutor.run shell id maxBytes contentSize
  | .presignedPut url headers _ _ => PresignedPutExecutor.run shell id url headers

/-- Some call of the shell throws `error`. -/
def UploadShell.Throws (shell : UploadShell) (error : Thrown) : Prop :=
  shell.bytes = .error error ∨ (∃ bytes, shell.toBase64 bytes = .error error) ∨
    (∃ id content, shell.send id content = .error error) ∨
    ∃ url headers bytes, shell.put url headers bytes = .error error

/-- The bytes of an original are where they belong. -/
def UploadTransfer.Delivered (shell : UploadShell) (id : JSString) (contentSize : Double) :
    UploadTransfer → Prop
  | .inline maxBytes => ¬ maxBytes < contentSize ∧ ∃ bytes content, shell.bytes = .ok bytes ∧
      shell.toBase64 bytes = .ok content ∧ shell.send id content = .ok ()
  | .presignedPut url headers _ _ => ∃ bytes status code, shell.bytes = .ok bytes ∧
      shell.put url headers bytes = .ok (status, code) ∧ putSucceeded status = true

/-- Who is to blame for a failure: the client, for what is too large or what it threw; the
API, for what it said; the storage, for its status. -/
inductive UploadTransfer.Blames (shell : UploadShell) (contentSize : Double) :
    UploadTransfer → UploadFailure → Prop where
  | tooLarge (maxBytes : Double) : maxBytes < contentSize →
    Blames shell contentSize (.inline maxBytes) tooLarge
  | api (maxBytes : Double) (error : Thrown) (message : JSString) : shell.Throws error →
    error.text = some message → Blames shell contentSize (.inline maxBytes) (asApiFailure message)
  | unprintable (maxBytes : Double) (error : Thrown) (message : JSString) : shell.Throws error →
    error.text = none → error.instead = some message →
    Blames shell contentSize (.inline maxBytes) (thrown message)
  | storage (url : JSString) (headers : List (JSString × JSString)) (maxBytes : Double)
    (expiresAt : Option Double) (bytes : List UInt8) (status : Nat) (code : Option JSString) :
    shell.put url headers bytes = .ok (status, code) → putSucceeded status = false →
    Blames shell contentSize (.presignedPut url headers maxBytes expiresAt)
      (asStorageFailure status code)
  | put (url : JSString) (headers : List (JSString × JSString)) (maxBytes : Double)
    (expiresAt : Option Double) (error : Thrown) (message : JSString) : shell.Throws error →
    error.text = some message →
    Blames shell contentSize (.presignedPut url headers maxBytes expiresAt) (thrown message)

/-- What is thrown at the executor has a text by the time the engine asks for it. -/
def UploadTransfer.Printable : UploadTransfer → Thrown → Prop
  | .inline _, error => error.text.isSome ∨ error.instead.isSome
  | .presignedPut .., error => error.text.isSome

section

variable {shell : UploadShell} {id : JSString} {contentSize : Double}

/-- The executor ends with `failure`, in a receipt for its slot or by throwing. -/
def ExecutorOutcome.EndsWith (id : JSString) (failure : Option UploadFailure)
    (outcome : ExecutorOutcome) : Prop :=
  outcome = .receipt ⟨id, failure⟩ ∨
    ∃ message, outcome = .throws (some message) ∧ failure = some (thrown message)

theorem inline_ends {maxBytes : Double}
    (printable : ∀ error, shell.Throws error → (UploadTransfer.inline maxBytes).Printable error) :
    ∃ failure, (InlineExecutor.run shell id maxBytes contentSize).EndsWith id failure ∧
      (failure = none ↔ (UploadTransfer.inline maxBytes).Delivered shell id contentSize) ∧
      ∀ f, failure = some f → (UploadTransfer.inline maxBytes).Blames shell contentSize f := by
  have threw {error : Thrown} (throws : shell.Throws error) : ∃ failure,
      (match error.text with
        | some message => ExecutorOutcome.receipt ⟨id, some (asApiFailure message)⟩
        | none => .throws error.instead).EndsWith id failure ∧
      failure ≠ none ∧
      ∀ f, failure = some f → (UploadTransfer.inline maxBytes).Blames shell contentSize f := by
    cases text : error.text with
    | some message =>
      refine ⟨_, .inl rfl, by simp, fun f hf => ?_⟩
      cases hf
      exact .api maxBytes error message throws text
    | none =>
      rcases printable error throws with printable | printable
      · simp [text] at printable
      · obtain ⟨message, instead⟩ := Option.isSome_iff_exists.mp printable
        refine ⟨_, .inr ⟨message, by rw [instead], rfl⟩, by simp, fun f hf => ?_⟩
        cases hf
        exact .unprintable maxBytes error message throws text instead
  unfold InlineExecutor.run
  by_cases large : contentSize > maxBytes
  · rw [if_pos large]
    refine ⟨_, .inl rfl, by simp [UploadTransfer.Delivered, show maxBytes < contentSize from large],
      fun f hf => ?_⟩
    cases hf
    exact .tooLarge maxBytes large
  · rw [if_neg large]
    cases read : shell.bytes with
    | error error =>
      obtain ⟨failure, ends, failed, blames⟩ := threw (.inl read)
      exact ⟨failure, ends, by simp [failed, UploadTransfer.Delivered, read], blames⟩
    | ok bytes =>
      cases encoded : shell.toBase64 bytes with
      | error error =>
        obtain ⟨failure, ends, failed, blames⟩ := threw (.inr (.inl ⟨bytes, encoded⟩))
        refine ⟨failure, ?_, by simp [failed, UploadTransfer.Delivered, read, encoded], blames⟩
        simpa [bind, Except.bind, encoded] using ends
      | ok content =>
        cases sent : shell.send id content with
        | error error =>
          obtain ⟨failure, ends, failed, blames⟩ :=
            threw (.inr (.inr (.inl ⟨id, content, sent⟩)))
          refine ⟨failure, ?_, by simp [failed, UploadTransfer.Delivered, read, encoded, sent],
            blames⟩
          simpa [bind, Except.bind, encoded, sent] using ends
        | ok _ =>
          refine ⟨none, .inl (by simp [bind, Except.bind, encoded, sent]), ?_,
            fun f hf => nomatch hf⟩
          simp [UploadTransfer.Delivered, read, encoded, sent,
            show ¬ maxBytes < contentSize from large]

theorem presignedPut_ends {url : JSString} {headers : List (JSString × JSString)}
    {maxBytes : Double} {expiresAt : Option Double} (printable : ∀ error, shell.Throws error →
      (UploadTransfer.presignedPut url headers maxBytes expiresAt).Printable error) :
    ∃ failure, (PresignedPutExecutor.run shell id url headers).EndsWith id failure ∧
      (failure = none ↔
        (UploadTransfer.presignedPut url headers maxBytes expiresAt).Delivered shell id contentSize) ∧
      ∀ f, failure = some f →
        (UploadTransfer.presignedPut url headers maxBytes expiresAt).Blames shell contentSize f := by
  have threw {error : Thrown} (throws : shell.Throws error) : ∃ failure,
      (ExecutorOutcome.throws error.text).EndsWith id failure ∧ failure ≠ none ∧
      ∀ f, failure = some f →
        (UploadTransfer.presignedPut url headers maxBytes expiresAt).Blames shell contentSize f := by
    obtain ⟨message, text⟩ := Option.isSome_iff_exists.mp (printable error throws)
    refine ⟨_, .inr ⟨message, by rw [text], rfl⟩, by simp, fun f hf => ?_⟩
    cases hf
    exact .put url headers maxBytes expiresAt error message throws text
  unfold PresignedPutExecutor.run
  cases read : shell.bytes with
  | error error =>
    obtain ⟨failure, ends, failed, blames⟩ := threw (.inl read)
    exact ⟨failure, ends, by simp [failed, UploadTransfer.Delivered, read], blames⟩
  | ok bytes =>
    cases answer : shell.put url headers bytes with
    | error error =>
      obtain ⟨failure, ends, failed, blames⟩ :=
        threw (.inr (.inr (.inr ⟨url, headers, bytes, answer⟩)))
      refine ⟨failure, ?_, by simp [failed, UploadTransfer.Delivered, read, answer], blames⟩
      simpa [bind, Except.bind, answer] using ends
    | ok response =>
      obtain ⟨status, code⟩ := response
      cases stored : putSucceeded status with
      | true =>
        refine ⟨none, .inl (by simp [bind, Except.bind, answer, stored]), ?_,
          fun f hf => nomatch hf⟩
        simp [UploadTransfer.Delivered, read, answer, stored]
      | false =>
        refine ⟨some (asStorageFailure status code),
          .inl (by simp [bind, Except.bind, answer, stored]), ?_, fun f hf => ?_⟩
        · simp [UploadTransfer.Delivered, read, answer, stored]
        · cases hf
          exact .storage url headers maxBytes expiresAt bytes status code answer stored

/-- How an executor ends: without a failure exactly when the bytes are delivered. -/
theorem run_ends (transfer : UploadTransfer)
    (printable : ∀ error, shell.Throws error → transfer.Printable error) :
    ∃ failure, (transfer.run shell id contentSize).EndsWith id failure ∧
      (failure = none ↔ transfer.Delivered shell id contentSize) ∧
      ∀ f, failure = some f → transfer.Blames shell contentSize f := by
  cases transfer with
  | inline maxBytes => exact inline_ends printable
  | presignedPut url headers maxBytes expiresAt => exact presignedPut_ends printable

end

end LemonModel
