import Outbox.Proofs.Batches
import Outbox.Proofs.Wiring

/-! # What a dispatch does and reports

A dispatch calls every consumer of the tag, whatever comes of the other calls. It reports how many
these were if all of them succeeded, and otherwise what there is to say of each that did not, behind
the consumer's name.
-/

namespace Outbox

namespace CallOutcome

/-- What there is to say of a call that did not succeed. -/
inductive Explains : CallOutcome → String → Prop
  /-- The tag is known already. -/
  | dispatch (tag : MessageType) (reason : String) : Explains (failed (.dispatch tag reason)) reason
  | failure (failure : Failure) (hother : ∀ tag reason, failure ≠ .dispatch tag reason) :
      Explains (failed failure) failure.message
  | text (text : String) : Explains (panicked (some text)) ("consumer panicked: " ++ text)
  | noText : Explains (panicked none) "consumer panicked: non-string payload"
  | ended (report : String) : Explains (ended report) ("consumer task ended: " ++ report)

variable {outcome : CallOutcome}

theorem complaint?_eq_none_iff : outcome.complaint? = none ↔ outcome.isSuccess := by
  cases outcome <;> simp [complaint?, isSuccess]

/-- A complaint says what has gone wrong with the call. -/
theorem explains_of_complaint? {reason : String} (hcomplaint : outcome.complaint? = some reason) :
    outcome.Explains reason := by
  cases outcome with
  | succeeded => cases hcomplaint
  | failed failure =>
      cases failure with
      | dispatch tag reason =>
          cases hcomplaint
          exact .dispatch tag reason
      | _ =>
          cases hcomplaint
          exact .failure _ fun tag reason heq => by cases heq
  | panicked payload =>
      cases payload with
      | some text =>
          cases hcomplaint
          exact .text text
      | none =>
          cases hcomplaint
          exact .noText
  | ended report =>
      cases hcomplaint
      exact .ended report

end CallOutcome

/-- A call of a consumer, and what came of it. -/
structure ConsumerCall (κ : Type) where
  consumer : κ
  tag : MessageType
  content : String
  outcome : CallOutcome

namespace ConsumerCall

variable {κ : Type} [Named κ]

def succeeds (c : ConsumerCall κ) : Bool := c.outcome.isSuccess

/-- What a dispatch keeps of the call. -/
def result (c : ConsumerCall κ) : String × CallOutcome := (Named.name c.consumer, c.outcome)

/-- A dispatch reports the call by this text. -/
def ReportedAs (c : ConsumerCall κ) (text : String) : Prop :=
  ∃ reason, c.outcome.Explains reason ∧ text = Named.name c.consumer ++ ": " ++ reason

end ConsumerCall

namespace Dispatch

variable {κ : Type} [Named κ] {c : ConsumerCall κ} {calls : List (ConsumerCall κ)}

theorem complaints_cons_of_succeeds (hsucceeds : c.succeeds) :
    complaints ((c :: calls).map ConsumerCall.result) =
      complaints (calls.map ConsumerCall.result) :=
  List.filterMap_cons_none
    (congrArg (Option.map _) (CallOutcome.complaint?_eq_none_iff.mpr hsucceeds))

/-- A call that fails adds its complaint, with the name of the consumer. -/
theorem complaints_cons_of_not_succeeds (calls : List (ConsumerCall κ))
    (hfails : c.succeeds = false) : ∃ text, c.ReportedAs text ∧
      complaints ((c :: calls).map ConsumerCall.result) =
        text :: complaints (calls.map ConsumerCall.result) := by
  cases hcomplaint : c.outcome.complaint? with
  | none =>
      have hsucceeds : c.succeeds = true := CallOutcome.complaint?_eq_none_iff.mp hcomplaint
      rw [hfails] at hsucceeds
      cases hsucceeds
  | some reason =>
      refine ⟨_, ⟨reason, CallOutcome.explains_of_complaint? hcomplaint, rfl⟩, ?_⟩
      exact List.filterMap_cons_some (congrArg (Option.map _) hcomplaint)

/-- The calls that did not succeed are reported in their order. -/
theorem reported_complaints (calls : List (ConsumerCall κ)) :
    List.Forall₂ ConsumerCall.ReportedAs (calls.filter fun c => !c.succeeds)
      (complaints (calls.map ConsumerCall.result)) := by
  induction calls with
  | nil => exact .nil
  | cons c calls ih =>
      cases hsucceeds : c.succeeds with
      | true =>
          rw [complaints_cons_of_succeeds hsucceeds, List.filter_cons_of_neg (by simp [hsucceeds])]
          exact ih
      | false =>
          obtain ⟨text, hreported, heq⟩ := complaints_cons_of_not_succeeds calls hsucceeds
          rw [heq, List.filter_cons_of_pos (by simp [hsucceeds])]
          exact .cons hreported ih

theorem complaints_eq_nil_iff : complaints (calls.map ConsumerCall.result) = [] ↔
    ∀ c ∈ calls, c.succeeds := by
  have hlength := (reported_complaints calls).length_eq
  rw [← List.length_eq_zero_iff, ← hlength, List.length_eq_zero_iff, List.filter_eq_nil_iff]
  simp

/-- If all calls succeed, the message counts as delivered to that many. -/
theorem verdict_of_succeeds (tag : MessageType) (hcalled : calls ≠ [])
    (hall : ∀ c ∈ calls, c.succeeds) :
    verdict tag (calls.map ConsumerCall.result) = .ok (.delivered calls.length) := by
  rw [verdict, if_neg (by simpa using hcalled), complaints_eq_nil_iff.mpr hall, List.length_map]
  rfl

/-- If a call fails, the dispatch does, and its reason lists all complaints. -/
theorem verdict_of_not_succeeds (tag : MessageType) (hfails : ¬ ∀ c ∈ calls, c.succeeds) :
    verdict tag (calls.map ConsumerCall.result) = .error (.dispatch tag
      (String.intercalate "; " (complaints (calls.map ConsumerCall.result)))) := by
  have hcalled : calls ≠ [] := fun hnil => hfails (by simp [hnil])
  rw [verdict, if_neg (by simpa using hcalled), if_neg]
  rwa [List.isEmpty_iff, complaints_eq_nil_iff]

theorem verdict_eq_unhandled_iff (tag : MessageType) :
    verdict tag (calls.map ConsumerCall.result) = .ok .unhandled ↔ calls = [] := by
  constructor
  · intro hverdict
    by_contra hcalled
    exact Registry.verdict_ne_unhandled (by simpa using hcalled) hverdict
  · rintro rfl
    rfl

theorem verdict_eq_delivered_iff (tag : MessageType) (n : Nat) :
    verdict tag (calls.map ConsumerCall.result) = .ok (.delivered n) ↔
      calls ≠ [] ∧ (∀ c ∈ calls, c.succeeds) ∧ n = calls.length := by
  constructor
  · intro hverdict
    have hcalled : calls ≠ [] := by
      rintro rfl
      cases hverdict
    have hall : ∀ c ∈ calls, c.succeeds := by
      by_contra hfails
      cases (verdict_of_not_succeeds tag hfails).symm.trans hverdict
    cases (verdict_of_succeeds tag hcalled hall).symm.trans hverdict
    exact ⟨hcalled, hall, rfl⟩
  · rintro ⟨hcalled, hall, rfl⟩
    exact verdict_of_succeeds tag hcalled hall

end Dispatch

namespace Registry

variable {κ σ : Type} [Named κ]

/-- A call of a consumer, with what came of it put on record. -/
def recorded (call : κ → MessageType → String → StateM σ CallOutcome) (k : κ) (tag : MessageType)
    (content : String) : StateM (σ × List (ConsumerCall κ)) CallOutcome :=
  fun (s, made) =>
    let called := call k tag content s
    (called.1, (called.2, made ++ [⟨k, tag, content, called.1⟩]))

/-- All consumers are called in their order, and all that comes of it is kept. -/
theorem callAll_recorded (call : κ → MessageType → String → StateM σ CallOutcome) (ks : List κ)
    (tag : MessageType) (content : String) (s : σ) (earlier : List (ConsumerCall κ)) :
    ∃ made s', callAll call ks tag content s = (made.map ConsumerCall.result, s') ∧
      callAll (recorded call) ks tag content (s, earlier) =
        (made.map ConsumerCall.result, (s', earlier ++ made)) ∧
      made.map (fun c => (c.consumer, c.tag, c.content)) = ks.map fun k => (k, tag, content) := by
  induction ks generalizing s earlier with
  | nil =>
      refine ⟨[], s, rfl, ?_, rfl⟩
      rw [List.append_nil]
      rfl
  | cons k ks ih =>
      let called := call k tag content s
      obtain ⟨made, s', hplain, hrecorded, hmade⟩ :=
        ih called.2 (earlier ++ [⟨k, tag, content, called.1⟩])
      refine ⟨⟨k, tag, content, called.1⟩ :: made, s', ?_, ?_, ?_⟩
      · rw [callAll_cons]
        exact congrArg (fun others => ((Named.name k, called.1) :: others.1, others.2)) hplain
      · rw [List.append_assoc] at hrecorded
        rw [callAll_cons]
        exact congrArg (fun others => ((Named.name k, called.1) :: others.1, others.2)) hrecorded
      · exact congrArg ((k, tag, content) :: ·) hmade

/-- Whatever consumers do, and whatever they leave behind for those that follow, a dispatch calls
each one registered for the tag, in the order of registration, with this tag and content. It is
unhandled if nobody is registered and delivered to all if all calls succeed. Otherwise it fails for
the tag, and the reason consists of what there is to say of the calls that did not succeed, in their
order. -/
theorem dispatch_calls_everyone (r : Registry κ)
    (call : κ → MessageType → String → StateM σ CallOutcome) (tag : MessageType)
    (content : String) (s : σ) :
    ∃ outcome s' made,
      r.dispatch call tag content s = (outcome, s') ∧
      r.dispatch (recorded call) tag content (s, []) = (outcome, (s', made)) ∧
      made.map (fun c => (c.consumer, c.tag, c.content)) =
        (r.entries.filter (·.1 == tag)).map (fun entry => (entry.2, tag, content)) ∧
      (outcome = .ok .unhandled ↔ ∀ entry ∈ r.entries, entry.1 ≠ tag) ∧
      (∀ n, outcome = .ok (.delivered n) ↔
        made ≠ [] ∧ (∀ c ∈ made, c.succeeds) ∧ n = made.length) ∧
      (¬ (∀ c ∈ made, c.succeeds) → ∃ texts,
        List.Forall₂ ConsumerCall.ReportedAs (made.filter fun c => !c.succeeds) texts ∧
        outcome = .error (.dispatch tag (String.intercalate "; " texts))) := by
  obtain ⟨made, s', hplain, hrecorded, hmade⟩ :=
    callAll_recorded call (r.consumersFor tag) tag content s []
  have hnobody : made = [] ↔ ∀ entry ∈ r.entries, entry.1 ≠ tag := by
    have hlength := congrArg List.length hmade
    simp only [List.length_map, consumersFor] at hlength
    rw [← List.length_eq_zero_iff, hlength, List.length_eq_zero_iff, List.filter_eq_nil_iff]
    simp
  refine ⟨Dispatch.verdict tag (made.map ConsumerCall.result), s', made, ?_, ?_, ?_, ?_,
    Dispatch.verdict_eq_delivered_iff tag, fun hfails => ?_⟩
  · rw [dispatch_eq, hplain]
  · rw [dispatch_eq, hrecorded]
    rfl
  · rw [hmade, consumersFor, List.map_map]
    rfl
  · rw [Dispatch.verdict_eq_unhandled_iff, hnobody]
  · exact ⟨_, Dispatch.reported_complaints made, Dispatch.verdict_of_not_succeeds tag hfails⟩

/-- A consumer that fails and one that breaks off keep nobody from being called. -/
example :
    let tag : MessageType := ⟨"order"⟩
    let r : Registry PromptConsumer := ⟨[
      (tag, ⟨"mailer", .raw, fun _ tag => .failed (.dispatch tag "no address")⟩),
      (⟨"invoice"⟩, ⟨"printer", .raw, fun _ _ => .failed (.unavailable "paper")⟩),
      (tag, ⟨"audit", .raw, fun _ _ => .panicked none⟩),
      (tag, ⟨"search", .raw, fun _ _ => .succeeded⟩)]⟩
    let call (k : PromptConsumer) (tag : MessageType) (content : String) : StateM Nat CallOutcome :=
      fun calls => (k.call tag content, calls + 1)
    r.dispatch call tag "\x7b\x7d" 0 = (.error (.dispatch tag
      "mailer: no address; audit: consumer panicked: non-string payload"), 3) := by
  rfl

end Registry

end Outbox
