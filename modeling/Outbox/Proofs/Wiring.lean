import Outbox.Deployment
import Outbox.Proofs.Discipline

/-! # Wiring that fails early

A tag counts as expected if the last list of expectations has it, and as supplied if some consumer
was registered under it. The check when a deployment is built and the lookup when a message is
dispatched go by the same registry. So what passes the check is delivered to somebody: no cycle of
the deployment marks a message with an expected tag that nobody was called for.
-/

namespace Outbox

/-! ### Building -/

/-- What can be asked of a blueprint before it is built. -/
inductive WiringStep (κ : Type)
  | register (tag : MessageType) (consumer : κ)
  /-- Registers for notifications of a domain event. -/
  | registerEvent (event : String) (consumer : κ)
  | expect (tags : List MessageType)
  | configure (config : Config)

variable {κ : Type}

namespace WiringStep

def entry? : WiringStep κ → Option (MessageType × κ)
  | register tag consumer => some (tag, consumer)
  | registerEvent event consumer => some (.event event, consumer)
  | expect _ | configure _ => none

def expected? : WiringStep κ → Option (List MessageType)
  | expect tags => some tags
  | register .. | registerEvent .. | configure _ => none

def take [Named κ] (b : Blueprint κ) : WiringStep κ → Except RegistryError (Blueprint κ)
  | register tag consumer => b.register tag consumer
  | registerEvent event consumer => b.register (.event event) consumer
  | expect tags => .ok (b.expect tags)
  | configure config => .ok { b with config := config }

/-- The tags of the last list of expectations, or none. -/
def lastExpected (steps : List (WiringStep κ)) : List MessageType :=
  (steps.filterMap expected?).getLast?.getD []

/-- Some consumer is registered under the tag. -/
def supplies (steps : List (WiringStep κ)) (tag : MessageType) : Bool :=
  (steps.filterMap entry?).any (·.1 == tag)

end WiringStep

namespace Registry

theorem entries_register [Named κ] {r r' : Registry κ} {tag : MessageType} {k : κ}
    (hregister : r.register tag k = .ok r') : r'.entries = r.entries ++ [(tag, k)] := by
  unfold register at hregister
  split at hregister
  · cases hregister
  · cases hregister
    rfl

theorem isRegistered_iff {r : Registry κ} {tag : MessageType} :
    r.isRegistered tag ↔ r.consumersFor tag ≠ [] := by
  rw [isRegistered, Bool.not_eq_true', List.isEmpty_eq_false_iff]

theorem isRegistered_eq (r : Registry κ) (tag : MessageType) :
    r.isRegistered tag = r.entries.any (·.1 == tag) := by
  rw [Bool.eq_iff_iff, isRegistered_iff, consumersFor, ne_eq, List.map_eq_nil_iff,
    List.filter_eq_nil_iff, List.any_eq_true]
  simp only [not_forall, Decidable.not_not, exists_prop]

end Registry

namespace Blueprint

/-- Takes the steps one after the other, as long as no registration is refused. -/
def follow [Named κ] (b : Blueprint κ) (steps : List (WiringStep κ)) :
    Except RegistryError (Blueprint κ) := steps.foldlM WiringStep.take b

theorem entries_register [Named κ] {b b' : Blueprint κ} {tag : MessageType} {k : κ}
    (hregister : b.register tag k = .ok b') :
    b'.registry.entries = b.registry.entries ++ [(tag, k)] ∧ b'.expected = b.expected := by
  simp only [register] at hregister
  cases hentry : b.registry.register tag k with
  | error refused =>
      rw [hentry] at hregister
      cases hregister
  | ok registry =>
      rw [hentry] at hregister
      cases hregister
      exact ⟨Registry.entries_register hentry, rfl⟩

/-- A step adds its entry, and replaces what is expected if it says so. -/
theorem take_eq [Named κ] {b b' : Blueprint κ} {step : WiringStep κ}
    (htake : step.take b = .ok b') :
    b'.registry.entries = b.registry.entries ++ step.entry?.toList ∧
      b'.expected = step.expected?.getD b.expected := by
  cases step with
  | register tag consumer => exact entries_register htake
  | registerEvent event consumer => exact entries_register htake
  | expect tags =>
      cases htake
      exact ⟨(List.append_nil _).symm, rfl⟩
  | configure config =>
      cases htake
      exact ⟨(List.append_nil _).symm, rfl⟩

/-- The registry has the consumers in the order of their registration, and of the expectations the
last ones count. -/
theorem follow_eq [Named κ] {b b' : Blueprint κ} {steps : List (WiringStep κ)}
    (hfollow : b.follow steps = .ok b') :
    b'.registry.entries = b.registry.entries ++ steps.filterMap WiringStep.entry? ∧
      b'.expected = (steps.filterMap WiringStep.expected?).getLast?.getD b.expected := by
  induction steps generalizing b with
  | nil =>
      cases hfollow
      exact ⟨(List.append_nil _).symm, rfl⟩
  | cons step rest ih =>
      rw [follow, List.foldlM_cons] at hfollow
      cases htake : step.take b with
      | error refused =>
          rw [htake] at hfollow
          cases hfollow
      | ok next =>
          rw [htake] at hfollow
          obtain ⟨hentries, hexpected⟩ := take_eq htake
          obtain ⟨hentries', hexpected'⟩ := ih hfollow
          rw [hentries', hentries, hexpected', hexpected]
          constructor
          · cases hentry : step.entry? <;> simp [hentry]
          · cases hlisted : step.expected? <;> simp [hlisted, List.getLast?_cons]

/-- What is expected is all there and the parts are put together, or something is missing and is
named. -/
theorem build_cases (b : Blueprint κ) :
    (b.registry.missing b.expected = [] ∧
      b.build = .ok ⟨b.registry, .ofConfig b.config, .ofConfig b.config, b.config⟩) ∨
    (b.registry.missing b.expected ≠ [] ∧
      b.build = .error ⟨b.registry.missing b.expected⟩) := by
  unfold build
  split
  next heq => exact .inl ⟨heq, rfl⟩
  next missing hsome => exact .inr ⟨hsome, rfl⟩

end Blueprint

/-! ### Dispatching -/

/-- What a consumer makes of content, and the renewals at heartbeats in the course of it. -/
abbrev Work (κ σ : Type) : Type := κ → MessageType → String → StateM σ (CallOutcome × List Beat)

/-- A call of a consumer, with all that is done in it put on record. -/
def Work.witnessed {σ : Type} (work : Work κ σ) (k : κ) (tag : MessageType) (content : String) :
    StateM (σ × List (Interlude κ)) CallOutcome :=
  fun (s, interludes) =>
    let called := work k tag content s
    (called.1.1, (called.2, interludes ++ .call k tag content :: called.1.2.map .beat))

/-- Each call of a consumer is on record, with the tag and the content. -/
theorem Work.calls_witnessed {σ : Type} (work : Work κ σ) (k : κ) (tag : MessageType)
    (content : String) (s : σ) (interludes : List (Interlude κ)) :
    (work.witnessed k tag content (s, interludes)).2.2.filterMap Interlude.call? =
      interludes.filterMap Interlude.call? ++ [(k, tag, content)] := by
  have hbeats (beats : List Beat) :
      (beats.map (Interlude.beat : Beat → Interlude κ)).filterMap Interlude.call? = [] := by
    rw [List.filterMap_map]
    exact List.filterMap_eq_nil_iff.mpr fun _ _ => rfl
  simp only [Work.witnessed, List.filterMap_append, List.filterMap_cons, hbeats, Interlude.call?]

namespace Registry

variable [Named κ] {σ : Type}

/-- A dispatch through the registry. What its consumers do, how long they take and what becomes of
the renewals meanwhile is left open. -/
def dispatching (r : Registry κ) : Dispatching κ := fun message _ interludes outcome =>
  ∃ (σ : Type) (work : Work κ σ) (s s' : σ),
    r.dispatch work.witnessed message.tag message.content (s, []) = (outcome, (s', interludes))

theorem verdict_ne_unhandled {tag : MessageType} {calls : List (String × CallOutcome)}
    (hcalled : calls ≠ []) : Dispatch.verdict tag calls ≠ .ok .unhandled := by
  rw [Dispatch.verdict, if_neg (by simpa using hcalled)]
  split <;> exact nofun

/-- The consumers are called one after the other. -/
def callAll (call : κ → MessageType → String → StateM σ CallOutcome) (ks : List κ)
    (tag : MessageType) (content : String) : StateM σ (List (String × CallOutcome)) :=
  ks.mapM fun k => do return (Named.name k, ← call k tag content)

theorem dispatch_eq (r : Registry κ) (call : κ → MessageType → String → StateM σ CallOutcome)
    (tag : MessageType) (content : String) (s : σ) :
    r.dispatch call tag content s =
      let called := callAll call (r.consumersFor tag) tag content s
      (Dispatch.verdict tag called.1, called.2) := rfl

theorem callAll_cons (call : κ → MessageType → String → StateM σ CallOutcome) (k : κ)
    (ks : List κ) (tag : MessageType) (content : String) (s : σ) :
    callAll call (k :: ks) tag content s =
      let first := call k tag content s
      let others := callAll call ks tag content first.2
      ((Named.name k, first.1) :: others.1, others.2) := by
  rw [callAll, List.mapM_cons]
  rfl

/-- Every consumer is called, whatever comes of the calls. -/
theorem length_callAll (call : κ → MessageType → String → StateM σ CallOutcome) (ks : List κ)
    (tag : MessageType) (content : String) (s : σ) :
    (callAll call ks tag content s).1.length = ks.length := by
  induction ks generalizing s with
  | nil => rfl
  | cons k ks ih =>
      rw [callAll_cons]
      exact congrArg (· + 1) (ih _)

/-- A tag that is registered is never left unhandled. -/
theorem dispatch_ne_unhandled {r : Registry κ} {tag : MessageType}
    (hregistered : r.isRegistered tag)
    (call : κ → MessageType → String → StateM σ CallOutcome) (content : String) (s : σ) :
    (r.dispatch call tag content s).1 ≠ .ok .unhandled := by
  have hcalled : (callAll call (r.consumersFor tag) tag content s).1 ≠ [] := by
    intro hnone
    have hlength := length_callAll call (r.consumersFor tag) tag content s
    rw [hnone, List.length_nil] at hlength
    exact isRegistered_iff.mp hregistered (List.eq_nil_of_length_eq_zero hlength.symm)
  rw [dispatch_eq]
  exact verdict_ne_unhandled hcalled

/-- All consumers are on record, in their order. -/
theorem calls_callAll (work : Work κ σ) (ks : List κ) (tag : MessageType) (content : String)
    (s : σ) (interludes : List (Interlude κ)) :
    (callAll work.witnessed ks tag content (s, interludes)).2.2.filterMap Interlude.call? =
      interludes.filterMap Interlude.call? ++ ks.map fun k => (k, tag, content) := by
  induction ks generalizing s interludes with
  | nil => exact (List.append_nil _).symm
  | cons k ks ih =>
      let called := work.witnessed k tag content (s, interludes)
      have hrest := ih called.2.1 called.2.2
      rw [work.calls_witnessed, List.append_assoc] at hrest
      rw [callAll_cons, List.map_cons]
      exact hrest

/-- In a dispatch every consumer of the tag is called once, in the order of registration. -/
theorem calls_of_dispatching {r : Registry κ} {message : Message} {heartbeat : Heartbeat}
    {interludes : List (Interlude κ)} {outcome : Except Failure DispatchOutcome}
    (hdispatch : r.dispatching message heartbeat interludes outcome) :
    interludes.filterMap Interlude.call? =
      (r.consumersFor message.tag).map fun k => (k, message.tag, message.content) := by
  obtain ⟨σ, work, s, s', heq⟩ := hdispatch
  have hrecord : (callAll work.witnessed (r.consumersFor message.tag) message.tag message.content
      (s, [])).2.2 = interludes := by
    rw [dispatch_eq] at heq
    exact congrArg (fun dispatched => dispatched.2.2) heq
  rw [← hrecord]
  exact calls_callAll work (r.consumersFor message.tag) message.tag message.content s []

end Registry

namespace Blueprint

section Followed

variable [Named κ] {steps : List (WiringStep κ)} {b : Blueprint κ}

/-- After these steps a tag is registered if one of them supplies it. -/
theorem isRegistered_of_follow (hfollow : empty.follow steps = .ok b) (tag : MessageType) :
    b.registry.isRegistered tag = WiringStep.supplies steps tag := by
  rw [Registry.isRegistered_eq, (follow_eq hfollow).1]
  rfl

/-- After these steps those tags are missing that were expected last and none of them supplies. -/
theorem missing_of_follow (hfollow : empty.follow steps = .ok b) :
    b.registry.missing b.expected =
      (WiringStep.lastExpected steps).filter fun tag => !WiringStep.supplies steps tag := by
  rw [Registry.missing, (follow_eq hfollow).2]
  simp only [isRegistered_of_follow hfollow]
  rfl

theorem isRegistered_of_missing_nil (hfollow : empty.follow steps = .ok b)
    (hnone : b.registry.missing b.expected = []) {tag : MessageType}
    (hexpected : tag ∈ WiringStep.lastExpected steps) : b.registry.isRegistered tag := by
  rw [missing_of_follow hfollow, List.filter_eq_nil_iff] at hnone
  rw [isRegistered_of_follow hfollow]
  simpa using hnone tag hexpected

/-- A deployment is built just if each tag that was expected last has a consumer. Otherwise the
error lists the tags that have none, in the order of the expectations and as often as they are
there. Of what is built, no dispatch under an expected tag passes for one without consumers. And
when a cycle marks a message as processed, all consumers of its tag have been called for it in the
same turn; if the tag was expected there is one at least. -/
theorem wiring_fails_early (hfollow : empty.follow steps = .ok b) :
    let expected := WiringStep.lastExpected steps
    ((∃ e, b.build = .error e) ↔ ∃ tag ∈ expected, WiringStep.supplies steps tag = false) ∧
    (∀ e, b.build = .error e →
      e.missing = expected.filter fun tag => !WiringStep.supplies steps tag) ∧
    ∀ d, b.build = .ok d →
      (∀ tag ∈ expected, ∀ (σ : Type) (call : κ → MessageType → String → StateM σ CallOutcome)
        (content : String) (s : σ), (d.registry.dispatch call tag content s).1 ≠ .ok .unhandled) ∧
      ∀ claim seen result, (d.processor.cycle claim).Shows d.registry.dispatching seen result →
        ∀ c id time reply, .exchanged ⟨.store (.markProcessed c id time), reply⟩ ∈ seen →
          ∃ t : Processor.Turn κ, t.seen d.processor claim <:+: seen ∧ t.message.id = id ∧
            (∃ now fetched, .exchanged ⟨.store (.fetch claim d.processor.batchSize now
              d.processor.lease), fetched⟩ ∈ seen ∧ t.message ∈ Processor.batchOf fetched) ∧
            d.processor.recording claim t.message t.time t.reply t.outcome =
              ⟨.store (.markProcessed c id time), reply⟩ ∧
            t.interludes.filterMap Interlude.call? = (d.registry.consumersFor t.message.tag).map
              (fun k => (k, t.message.tag, t.message.content)) ∧
            (t.message.tag ∈ expected → t.interludes.filterMap Interlude.call? ≠ []) := by
  intro expected
  rcases b.build_cases with ⟨hnone, hbuild⟩ | ⟨hsome, hbuild⟩
  · have hregistered {tag : MessageType} (hexpected : tag ∈ expected) :=
      isRegistered_of_missing_nil hfollow hnone hexpected
    refine ⟨⟨fun ⟨e, herror⟩ => ?_, fun ⟨tag, hexpected, hunsupplied⟩ => ?_⟩, fun e herror => ?_,
      fun d hbuilt => ?_⟩
    · rw [hbuild] at herror
      cases herror
    · rw [← isRegistered_of_follow hfollow, hregistered hexpected] at hunsupplied
      cases hunsupplied
    · rw [hbuild] at herror
      cases herror
    · rw [hbuild] at hbuilt
      cases hbuilt
      refine ⟨fun tag hexpected σ call content s =>
        Registry.dispatch_ne_unhandled (hregistered hexpected) call content s, ?_⟩
      intro claim seen result hshows c id time reply hmarked
      obtain ⟨t, hseen, hdispatch, hrecording, hbatch⟩ :=
        Processor.exists_turn_of_marked hshows hmarked
      have hcalls := Registry.calls_of_dispatching hdispatch
      refine ⟨t, hseen, Processor.id_of_recording hrecording, hbatch, hrecording, hcalls,
        fun hexpected => ?_⟩
      rw [hcalls, ne_eq, List.map_eq_nil_iff]
      exact Registry.isRegistered_iff.mp (hregistered hexpected)
  · have hmissing := missing_of_follow hfollow
    obtain ⟨tag, hmem⟩ := List.exists_mem_of_ne_nil _ hsome
    rw [hmissing, List.mem_filter, Bool.not_eq_true'] at hmem
    refine ⟨⟨fun _ => ⟨tag, hmem⟩, fun _ => ⟨_, hbuild⟩⟩, fun e herror => ?_, fun d hbuilt => ?_⟩
    · rw [hbuild] at herror
      cases herror
      exact hmissing
    · rw [hbuild] at hbuilt
      cases hbuilt

end Followed

def mailer : PromptConsumer := ⟨"mailer", .raw, fun _ _ => .succeeded⟩

/-- A shop that has a mailer for orders and for their cancellation. What it expects first does not
count in the end. -/
def shopSteps (expected : List MessageType) : List (WiringStep PromptConsumer) :=
  [.expect [⟨"invoice"⟩], .register ⟨"order"⟩ mailer, .configure .default,
    .registerEvent "OrderCancelled" mailer, .expect expected]

def shopBlueprint (expected : List MessageType) : Blueprint PromptConsumer :=
  ⟨⟨[(⟨"order"⟩, mailer), (.event "OrderCancelled", mailer)]⟩, .default, expected⟩

/-- A cycle of the shop with one order, and one heartbeat while the order is mailed. -/
def shopSeen (p : Processor) (claim : ClaimToken) (m : Message) :
    List (Occurrence PromptConsumer) :=
  [.exchanged ⟨.now, .epoch⟩,
    .exchanged ⟨.store (.fetch claim p.batchSize .epoch p.lease), .ok [m]⟩,
    .exchanged ⟨.stopRequested, false⟩, .exchanged ⟨.now, .epoch⟩,
    .exchanged ⟨.store (.renew claim [m.id] .epoch p.lease), .ok [m.id]⟩,
    .exchanged ⟨.dispatch m ⟨claim, [m.id], p.lease⟩, .ok (.delivered 1)⟩,
    .meanwhile (.call mailer m.tag m.content), .meanwhile (.beat ⟨.epoch, .ok [m.id]⟩),
    .exchanged ⟨.now, .epoch⟩, .exchanged ⟨.store (.markProcessed claim m.id .epoch), .ok ()⟩]

/-- With refunds expected nothing is built. Otherwise an order that is marked was mailed. -/
theorem shop_wiring_fails_early :
    let refund : MessageType := ⟨"refund"⟩
    let order : MessageType := ⟨"order"⟩
    let m := Message.numbered 1 "order" .epoch
    let claim := ClaimToken.numbered 1
    (empty.follow (shopSteps [refund, order, refund]) =
        .ok (shopBlueprint [refund, order, refund]) ∧
      ∃ e, (shopBlueprint [refund, order, refund]).build = .error e ∧
        e.missing = [refund, refund]) ∧
    empty.follow (shopSteps [order]) = .ok (shopBlueprint [order]) ∧
      ∃ d, (shopBlueprint [order]).build = .ok d ∧
        (d.processor.cycle claim).Shows d.registry.dispatching (shopSeen d.processor claim m)
          (.ok { fetched := 1, processed := 1 }) ∧
        ∃ t : Processor.Turn PromptConsumer, t.message.id = m.id ∧
          t.seen d.processor claim <:+: shopSeen d.processor claim m := by
  intro refund order m claim
  have hrefused : empty.follow (shopSteps [refund, order, refund]) =
      .ok (shopBlueprint [refund, order, refund]) := rfl
  have hfollow : empty.follow (shopSteps [order]) = .ok (shopBlueprint [order]) := rfl
  obtain ⟨hiff, hmissing, _⟩ := wiring_fails_early hrefused
  obtain ⟨e, herror⟩ := hiff.mpr ⟨refund, .head _, rfl⟩
  obtain ⟨_, _, hbuilt⟩ := wiring_fails_early hfollow
  refine ⟨⟨hrefused, e, herror, hmissing e herror⟩, hfollow, _, rfl, ?_⟩
  have hshows : ((Processor.ofConfig .default).cycle claim).Shows
      (shopBlueprint [order]).registry.dispatching (shopSeen (.ofConfig .default) claim m)
      (.ok { fetched := 1, processed := 1 }) := by
    refine .ask _ [] rfl (.ask _ [] rfl (.ask _ [] rfl (.ask _ [] rfl (.ask _ [] rfl ?_))))
    refine .ask _ [_, _] ?_ (.ask _ [] rfl (.ask _ [] rfl (.done _)))
    exact ⟨Unit, fun _ _ _ s => ((.succeeded, [⟨.epoch, .ok [m.id]⟩]), s), (), (), rfl⟩
  obtain ⟨t, hseen, hid, _⟩ := (hbuilt _ rfl).2 claim _ _ hshows claim m.id .epoch (.ok ())
    (by simp [shopSeen])
  exact ⟨hshows, t, hid, hseen⟩

end Blueprint

end Outbox
