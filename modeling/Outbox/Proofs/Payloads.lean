import Outbox.Dispatch
import Outbox.Proofs.JsonRoundTrip
import Outbox.Proofs.Lifecycle
import Outbox.Proofs.Snapshots
import Outbox.Writer

/-! # Payloads on their way

What a producer hands over is written as text, stored with the message, fetched and dispatched by
some cycle, and taken by the consumers of its tag. Nothing on the way changes the text, and of a
plain type it is read back as the value that was handed over.
-/

universe u

namespace Outbox

/-! ### The producer's side -/

namespace Handover

theorem encode_payload (h : Handover) : Codec.encode h.tag h.payload = .ok h.content := rfl

/-- The content of what was handed over is decoded as its value. -/
theorem decode_content {h : Handover} (hplain : h.schema.IsPlain Json.depthLimit) :
    Codec.decode h.tag h.schema h.content = .ok h.value := by
  rw [Codec.decode, content, Json.Schema.ofText_write hplain]
  rfl

end Handover

/-- However it is handed over, the writer inserts a message with its tag and its content. -/
theorem Writer.handOver_eq {m : Type → Type u} [Monad m] (draw : m MessageId) (clock : m Instant)
    (insert : Message → m (Except Failure Unit)) (h : Handover) (scheduledAt : Option Instant) :
    handOver draw clock insert h scheduledAt = (do
      let id ← draw
      let now ← clock
      let inserted ← insert (.create id h.tag h.content now scheduledAt)
      return inserted.map fun _ => id) := by
  cases h <;> rfl

/-! ### The consumers' side -/

/-- A call of a consumer, with what became of the content in it: what the consumer's handler has
made of it, or why the handler was not reached. -/
structure Handled (R : Type) where
  consumer : Consumer R
  result : Except Failure R

namespace Registry

variable {R σ : Type}

/-- What a call comes to depends on what the consumer has made of the content. -/
def responding (respond : Consumer R → MessageType → Except Failure R → StateM σ CallOutcome)
    (k : Consumer R) (tag : MessageType) (content : String) : StateM σ CallOutcome :=
  respond k tag (k.consume tag content)

/-- Responds as before, and puts on record what it responds to. -/
def noting (respond : Consumer R → MessageType → Except Failure R → StateM σ CallOutcome)
    (k : Consumer R) (tag : MessageType) (result : Except Failure R) :
    StateM (σ × List (Handled R)) CallOutcome :=
  fun (s, log) =>
    let (outcome, s) := respond k tag result s
    (outcome, (s, log ++ [⟨k, result⟩]))

/-- A dispatch goes to each consumer of the tag once, in the order of registration, whatever comes
of the calls. -/
theorem dispatch_noting (registry : Registry (Consumer R))
    (respond : Consumer R → MessageType → Except Failure R → StateM σ CallOutcome)
    (tag : MessageType) (content : String) (s : σ) :
    registry.dispatch (responding (noting respond)) tag content (s, []) =
      let (verdict, s') := registry.dispatch (responding respond) tag content s
      (verdict, (s', (registry.consumersFor tag).map fun k => ⟨k, k.consume tag content⟩)) := by
  have hcalls (ks : List (Consumer R)) (s : σ) (log : List (Handled R)) :
      (ks.mapM fun k => (do return (k.name, ← responding (noting respond) k tag content) :
          StateM (σ × List (Handled R)) (String × CallOutcome))) (s, log) =
        let (calls, s') := (ks.mapM fun k =>
          (do return (k.name, ← responding respond k tag content) :
            StateM σ (String × CallOutcome))) s
        (calls, (s', log ++ ks.map fun k => ⟨k, k.consume tag content⟩)) := by
    induction ks generalizing s log with
    | nil =>
        rw [List.map_nil, List.append_nil]
        rfl
    | cons k ks ih =>
        have hrest := ih (responding respond k tag content s).2
          (log ++ [⟨k, k.consume tag content⟩])
        rw [List.append_assoc] at hrest
        rw [List.mapM_cons, List.mapM_cons, List.map_cons]
        exact congrArg
          (fun rest => ((k.name, (responding respond k tag content s).1) :: rest.1, rest.2)) hrest
  exact congrArg (fun calls => (Dispatch.verdict tag calls.1, calls.2))
    (hcalls (registry.consumersFor tag) s [])

end Registry

namespace Run

variable {r : Run} {n : Nat} {id : MessageId} {m : Message}

/-- The message goes back to one that was there from the start or has been committed. -/
def Stems (r : Run) (n : Nat) (m : Message) : Prop :=
  ∃ origin : Message, origin.Advances m ∧
    ((∃ row, (r.table 0).row? m.id = some row ∧ row.message = origin) ∨
      ∃ k < n, r.Commits k origin)

/-- No other message ever has the id of this one. -/
structure IsOnly (r : Run) (m : Message) : Prop where
  absent : (r.table 0).row? m.id = none
  only : ∀ n m', r.Commits n m' → m'.id = m.id → m' = m

/-- Every row stems from a message that was committed, or that was there at the start. -/
theorem stems_of_row {row : Row} (hrow : (r.table n).row? id = some row) :
    r.Stems n row.message := by
  refine forall_row (P := fun n row => r.Stems n row.message) ?_ ?_ ?_ ?_ hrow
  · intro id row hrow
    refine ⟨row.message, .refl _, .inl ⟨row, ?_, rfl⟩⟩
    rw [show row.message.id = id from Table.row?_id hrow]
    exact hrow
  · intro n m hcommits
    exact ⟨m, .refl m, .inr ⟨n, Nat.lt_succ_self n, hcommits⟩⟩
  · rintro n row ⟨origin, hadvances, hstart | ⟨k, hlt, hcommits⟩⟩
    · exact ⟨origin, hadvances, .inl hstart⟩
    · exact ⟨origin, hadvances, .inr ⟨k, Nat.lt_succ_of_lt hlt, hcommits⟩⟩
  · rintro n call row after _ hchange ⟨origin, hadvances, hstart | ⟨k, hlt, hcommits⟩⟩
    · refine ⟨origin, hadvances.trans hchange.advances, .inl ?_⟩
      rw [hchange.advances.id]
      exact hstart
    · exact ⟨origin, hadvances.trans hchange.advances, .inr ⟨k, Nat.lt_succ_of_lt hlt, hcommits⟩⟩

/-- What is dispatched has been committed, and is as it was then but for what attempts have made of
it. -/
theorem IsOnly.advances (honly : r.IsOnly m) {claim : ClaimToken} {sent : Message}
    (hbegins : r.Begins n claim sent) (hid : sent.id = m.id) :
    (∃ k < n, r.Commits k m) ∧ m.Advances sent := by
  obtain ⟨f, hlt, limit, now, lease, _, _, hmem⟩ := handed_of_begins hbegins
  obtain ⟨row, hrow, rfl, _⟩ := Table.exists_row_of_mem_fetched hmem
  obtain ⟨origin, hadvances, ⟨first, hfirst, _⟩ | ⟨k, hkf, hcommits⟩⟩ := stems_of_row hrow
  · -- the id was not there from the start
    rw [hid, honly.absent] at hfirst
    cases hfirst
  · obtain rfl := honly.only k origin hcommits (hadvances.id.symm.trans hid)
    exact ⟨⟨k, by omega, hcommits⟩, hadvances⟩

end Run

namespace Handover

variable {h : Handover} {R : Type}

/-- The handler of a raw consumer has been given the content, and that of one for payloads of this
type the value. -/
inductive Reaches (h : Handover) : Handled R → Prop
  | raw (name : String) (handle : String → R) :
      Reaches h ⟨⟨name, .raw, handle⟩, .ok (handle h.content)⟩
  | typed (name : String) (handle : h.schema.Val → R) :
      Reaches h ⟨⟨name, .typed h.schema, handle⟩, .ok (handle h.value)⟩

/-- A consumer that takes the content as it is, or decodes it with the same schema, is called with
what was handed over. -/
theorem reaches_consume (hplain : h.schema.IsPlain Json.depthLimit) {k : Consumer R}
    (hintake : k.intake = .raw ∨ k.intake = .typed h.schema) :
    h.Reaches ⟨k, k.consume h.tag h.content⟩ := by
  obtain ⟨name, intake, handle⟩ := k
  rcases hintake with rfl | rfl
  · exact .raw name handle
  · have hresult : Consumer.consume ⟨name, .typed h.schema, handle⟩ h.tag h.content =
        .ok (handle h.value) := congrArg (Except.map handle) (decode_content hplain)
    rw [hresult]
    exact .typed name handle

/-- A payload of a plain type is encoded, and decoded again it is the same. Whichever way it is
handed over, the writer inserts a message with its tag and its content, the same for an event as for
a notification of it. If no other message has the id of this one, then each dispatch under the id
comes after its commit and goes to all consumers of the tag once, in their order; the handlers of
raw ones are given the content, and those of typed ones the value. -/
theorem arrives (hplain : h.schema.IsPlain Json.depthLimit) :
    Codec.encode h.tag h.payload = .ok h.content ∧
      Codec.decode h.tag h.schema h.content = .ok h.value ∧
      (∀ {m : Type → Type u} [Monad m] (draw : m MessageId) (clock : m Instant)
        (insert : Message → m (Except Failure Unit)) (scheduledAt : Option Instant),
        Writer.handOver draw clock insert h scheduledAt = (do
          let id ← draw
          let now ← clock
          let inserted ← insert (.create id h.tag h.content now scheduledAt)
          return inserted.map fun _ => id)) ∧
      (∀ (e : EventKind) (v : e.schema.Val),
        (notification ⟨v⟩).tag = (event e v).tag ∧
          (notification ⟨v⟩).content = (event e v).content) ∧
      ∀ {r : Run} {n : Nat} {id : MessageId} {createdAt : Instant} {scheduledAt : Option Instant}
        {claim : ClaimToken} {sent : Message},
        let m := Message.create id h.tag h.content createdAt scheduledAt
        r.IsOnly m → r.Begins n claim sent → sent.id = id →
          (∃ k < n, r.Commits k m) ∧
            ∀ {R σ : Type} (registry : Registry (Consumer R))
              (respond : Consumer R → MessageType → Except Failure R → StateM σ CallOutcome)
              (s : σ),
              let log := (registry.dispatch (Registry.responding (Registry.noting respond)) sent.tag
                sent.content (s, [])).2.2
              log.map Handled.consumer = registry.consumersFor h.tag ∧
                ∀ handled ∈ log, handled.consumer.intake = .raw ∨
                  handled.consumer.intake = .typed h.schema → h.Reaches handled := by
  refine ⟨h.encode_payload, decode_content hplain, fun draw clock insert scheduledAt =>
    Writer.handOver_eq draw clock insert h scheduledAt, fun e v => ⟨rfl, rfl⟩, ?_⟩
  intro r n id createdAt scheduledAt claim sent m honly hbegins hid
  obtain ⟨hcommits, hadvances⟩ := honly.advances hbegins hid
  refine ⟨hcommits, fun {R σ} registry respond s => ?_⟩
  intro log
  -- attempts change neither the tag nor the content, so the dispatch goes by those handed over
  have hlog : log =
      (registry.consumersFor h.tag).map fun k => ⟨k, k.consume h.tag h.content⟩ := by
    have hdispatch := registry.dispatch_noting respond sent.tag sent.content s
    rw [hadvances.tag, hadvances.content] at hdispatch
    change (registry.dispatch (Registry.responding (Registry.noting respond)) sent.tag sent.content
      (s, [])).2.2 = _
    rw [hadvances.tag, hadvances.content, hdispatch]
    rfl
  rw [hlog]
  refine ⟨?_, ?_⟩
  · rw [List.map_map]
    exact List.map_id _
  · rintro handled hmem hintake
    obtain ⟨k, _, rfl⟩ := List.mem_map.mp hmem
    exact reaches_consume hplain hintake

def refundFields : Json.Fields :=
  .field "payment_id" .text (.field "cents" .i64 (.field "final" .flag
    (.field "note" (.optional .text) (.field "tags" (.list .text) .done))))

def refund : EventKind := ⟨"PaymentRefunded", .record "PaymentRefunded" refundFields⟩

def refunded : Handover :=
  .notification (e := refund) ⟨(("p-\"1\"\n", (Int64.minValue, (true, (none, (["ü", ""], ()))))) :
    String × Int64 × Bool × Option String × List String × Unit)⟩

def refundMessage : Message :=
  .create (Message.numbered 1 "" .epoch).id refunded.tag refunded.content .epoch none

/-- The event is committed, and a cycle comes to its dispatch. -/
def refunding : List Event :=
  let claim := ClaimToken.numbered 1
  let p : Processor := ⟨.immediate, 1, .ofSeconds 5, .ofSeconds 3⟩
  [.commit (.single refundMessage), .begin claim p, .time claim .epoch, .store claim .served,
    .stopFlag claim false, .time claim .epoch, .store claim .served]

def refundRun : Run := .ofScript .empty refunding (by decide +kernel)

theorem refundRun_isOnly : refundRun.IsOnly refundMessage where
  absent := rfl
  only n m := by
    rintro ⟨u, hevent, _, hmem⟩ _
    exact Run.forall_event_ofScript
      (P := fun _ e => ∀ u ∈ e.commit?, ∀ m ∈ u.messages, m = refundMessage)
      (fun n u hmem => by cases hmem) (by decide +kernel) n u (congrArg Event.commit? hevent) m hmem

theorem refund_begins : refundRun.Begins 6 (.numbered 1) refundMessage := by
  refine ⟨⟨.numbered 1, [refundMessage.id], .ofSeconds 3⟩, ?_, ?_⟩
  · decide +kernel
  · decide +kernel

/-- What a handler that only looks has seen. -/
abbrev Sight : Type := String ⊕ refund.schema.Val

def ledger : Consumer Sight := ⟨"Ledger", .typed refund.schema, .inr⟩

def audit : Consumer Sight := ⟨"audit", .raw, .inl⟩

def refundRegistry : Registry (Consumer Sight) :=
  ⟨[(refunded.tag, ledger), (⟨"other"⟩, audit), (refunded.tag, audit)]⟩

/-- The event reaches the ledger as it was handed over, and the audit as it is stored. -/
theorem refund_arrives :
    refunded.schema.IsPlain Json.depthLimit ∧
      Codec.decode refunded.tag refunded.schema refunded.content = .ok refunded.value ∧
      refundRun.IsOnly refundMessage ∧ refundRun.Begins 6 (.numbered 1) refundMessage ∧
      (∃ k < 6, refundRun.Commits k refundMessage) ∧
      ∀ {σ : Type}
        (respond : Consumer Sight → MessageType → Except Failure Sight → StateM σ CallOutcome)
        (s : σ),
        (refundRegistry.dispatch (Registry.responding (Registry.noting respond)) refundMessage.tag
          refundMessage.content (s, [])).2.2 =
            [⟨ledger, .ok (.inr refunded.value)⟩, ⟨audit, .ok (.inl refunded.content)⟩] := by
  have hflat : refundFields.AreFlat := ⟨trivial, trivial, trivial, trivial, trivial, trivial⟩
  have hplain : refunded.schema.IsPlain Json.depthLimit :=
    Json.Schema.isPlain_of_flat (by decide) hflat 125
  obtain ⟨_, hdecode, _, _, hdispatched⟩ := arrives.{0} hplain
  obtain ⟨hcommits, hreceived⟩ := hdispatched refundRun_isOnly refund_begins rfl
  refine ⟨hplain, hdecode, refundRun_isOnly, refund_begins, hcommits, fun respond s => ?_⟩
  obtain ⟨hconsumers, hreaches⟩ := hreceived refundRegistry respond s
  have hboth : refundRegistry.consumersFor refunded.tag = [ledger, audit] := rfl
  obtain ⟨⟨_, first⟩, _, hlog, rfl, hrest⟩ := List.map_eq_cons_iff.mp (hconsumers.trans hboth)
  obtain ⟨⟨_, second⟩, _, rfl, rfl, hnone⟩ := List.map_eq_cons_iff.mp hrest
  obtain rfl := List.map_eq_nil_iff.mp hnone
  rw [hlog] at hreaches ⊢
  have htyped := hreaches _ List.mem_cons_self (.inr rfl)
  have hraw := hreaches _ (List.mem_cons_of_mem _ List.mem_cons_self) (.inl rfl)
  cases htyped
  cases hraw
  rfl

end Handover

end Outbox
