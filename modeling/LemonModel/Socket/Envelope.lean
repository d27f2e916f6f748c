import LemonModel.LogTrace.Loss
import LemonModel.Progress.Consumer
import LemonModel.Progress.NoLoss
import LemonModel.Sync.Client

/-!
# What travels on a shared socket

Everything that is written to a socket is a document with its `type` in front: the
packets of a transport, progress messages, batches of log entries, and the envelopes of
a client. Each reader decides by the type what it takes.
-/

namespace LemonModel

open Text

/-- A document that starts with its `type`. -/
structure Envelope where
  type : JSString
  rest : List (JSString × Json)
  wf : (Json.obj ((lit "type", .str type) :: rest)).Wf

namespace Envelope

variable (e : Envelope)

def document : Json := .obj ((lit "type", .str e.type) :: e.rest)

/-- `JSON.stringify(message)` -/
def raw : JSString := e.document.text

theorem parse_raw : parse e.raw = some e.document := parse_text _ e.wf

@[simp] theorem strField_type : strField e.document (lit "type") = some e.type := by
  rw [strField, document, prop?_cons, if_pos rfl]
  rfl

/-- A prefix of the printed type is behind `"type":"` in the text. -/
theorem marker_raw {start : JSString} (printed : start <+: quoteUnits e.type) :
    lit "\"type\":\"" ++ start <:+: e.raw := by
  obtain ⟨rest, cut⟩ := printed
  have key : lit "\"type\":\"" = quote (lit "type") ++ [unit ':', unit '"'] := by decide
  have value : (Json.str e.type).text = unit '"' :: (quoteUnits e.type ++ [unit '"']) := rfl
  refine ⟨[unit '{'], rest ++ unit '"' :: (propsText [unit ','] e.rest ++ [unit '}']), ?_⟩
  rw [raw, document, Json.text, propsText, value, key, ← cut]
  simp only [List.nil_append, List.cons_append, List.append_assoc]

end Envelope

/-! ## Who reads it -/

namespace Envelope

variable {e : Envelope} {typePrefix : JSString}

theorem isPrefixOf_false (foreign : ¬ typePrefix <+: e.type) :
    typePrefix.isPrefixOf e.type = false := by
  rw [← Bool.not_eq_true, List.isPrefixOf_iff_prefix]
  exact foreign

/-- A progress consumer takes nothing of another namespace. -/
theorem readState_foreign (foreign : ¬ typePrefix <+: e.type) :
    ProgressConsumer.readState typePrefix e.raw = none := by
  unfold ProgressConsumer.readState
  simp only [e.parse_raw, e.strField_type, isPrefixOf_false foreign, bind, Option.bind_some]
  by_cases seen : ProgressConsumer.rawKey typePrefix <:+: e.raw <;> simp [seen, guard]

/-- Nor does a consumer of log entries. -/
theorem readBatch_foreign (foreign : ¬ typePrefix <+: e.type) :
    readBatch typePrefix e.raw = none := by
  unfold readBatch
  simp only [e.parse_raw, e.strField_type, isPrefixOf_false foreign, bind, Option.bind_some]
  by_cases seen : lit "\"type\":\"" ++ typePrefix <:+: e.raw <;> simp [seen, guard]

theorem readMessage_raw :
    readMessage e.raw = some ⟨e.type, strField e.document (lit "mid"),
      e.document.prop? (lit "data")⟩ := by
  simp only [readMessage, e.parse_raw, e.strField_type, bind, Option.bind_some]

end Envelope

/-- `isTransportPacketString`: the packets that can be part of a message. -/
def isTransportPacketString (data : JSString) : Bool :=
  (parse data).any fun packet =>
    strField packet (lit "type") = some (lit "json:manifest") ∨
      strField packet (lit "type") = some (lit "json:chunk") ∨
      strField packet (lit "type") = some (lit "json:complete") ∨
      strField packet (lit "type") = some (lit "json:error")

/-- The types `isTransportPacketString` lets through. -/
def transportTypes : List JSString :=
  [lit "json:manifest", lit "json:chunk", lit "json:complete", lit "json:error"]

theorem Envelope.isTransportPacketString_iff (e : Envelope) :
    isTransportPacketString e.raw = true ↔ e.type ∈ transportTypes := by
  simp only [isTransportPacketString, e.parse_raw, Option.any_some, e.strField_type,
    Option.some.injEq, decide_eq_true_eq, transportTypes, List.mem_cons, List.not_mem_nil, or_false]

/-! ## Who writes it -/

/-- `JSON.stringify(packet)` -/
def JSONTransportPacket.envelope (p : JSONTransportPacket) (h : p.Wf) : Envelope where
  type := p.type
  rest := (lit "tid", .str p.tid) :: p.fields
  wf := p.json_wf h

end LemonModel
