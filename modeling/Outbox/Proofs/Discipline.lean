import Outbox.Proofs.Courses

/-! # What a cycle dispatches

Whatever the store replies and whenever a stop is requested, a cycle keeps to its batch and to what
all its renewals have returned, makes one record of each dispatch, and dispatches nothing after the
store has failed it. Each of these is proved along the courses that a cycle can take.
-/

namespace Outbox

namespace Exchange

def dispatched? : Exchange → Option Message
  | ⟨.dispatch message _, _⟩ => some message
  | _ => none

/-- The message that is dispatched, and whether that succeeds. -/
def outcome? : Exchange → Option (MessageId × Bool)
  | ⟨.dispatch message _, outcome⟩ => some (message.id, outcome.isOk)
  | _ => none

/-- The message that is marked, and whether it is marked as processed. -/
def mark? : Exchange → Option (MessageId × Bool)
  | ⟨.store (.markProcessed _ id _), _⟩ => some (id, true)
  | ⟨.store (.markFailed _ id _ _), _⟩ => some (id, false)
  | _ => none

/-- A message is dispatched or marked. -/
def isOfTurn (x : Exchange) : Bool := x.dispatched?.isSome || x.mark?.isSome

/-- A renewal that is answered before a message is dispatched returns the message. -/
def RenewedBefore (x y : Exchange) : Prop :=
  ∀ renewed ∈ x.renewed?, ∀ m ∈ y.dispatched?, m.id ∈ renewed

/-- A renewal fails, or a mark fails other than for a lost claim. -/
def breaksOff : Exchange → Bool
  | ⟨.store (.renew ..), reply⟩ => !reply.isOk
  | ⟨.store (.markProcessed ..), reply⟩ | ⟨.store (.markFailed ..), reply⟩ =>
      Processor.breaksOff reply
  | _ => false

/-- Nothing is dispatched after what breaks off. -/
def QuietAfter (x y : Exchange) : Prop := x.breaksOff → y.dispatched? = none

variable {x : Exchange} {log : List Exchange}

theorem renewedBefore_cons (hnone : x.renewed? = none) (hlog : log.Pairwise RenewedBefore) :
    (x :: log).Pairwise RenewedBefore := by
  refine .cons (fun y _ renewed hrenewed => ?_) hlog
  rw [hnone] at hrenewed
  cases hrenewed

theorem quietAfter_cons (hfine : x.breaksOff = false) (hlog : log.Pairwise QuietAfter) :
    (x :: log).Pairwise QuietAfter := by
  refine .cons (fun y _ hbreaks => ?_) hlog
  rw [hfine] at hbreaks
  cases hbreaks

end Exchange

namespace Processor

open Exchange (renewedBefore_cons quietAfter_cons)

variable {κ : Type} {D : Dispatching κ} {p : Processor} {claim : ClaimToken} {left : List Message}
  {held : List MessageId} {seen : List (Occurrence κ)} {x : Exchange}

theorem id_of_recording {message : Message} {time time' : Instant}
    {reply reply' : Except Failure Unit} {outcome : Except Failure DispatchOutcome}
    {c : ClaimToken} {id : MessageId} (hrecording : p.recording claim message time reply outcome =
      ⟨.store (.markProcessed c id time'), reply'⟩) : message.id = id := by
  cases outcome <;> cases hrecording
  rfl

namespace Turn

variable {t : Turn κ}

theorem mem_of_mem_kept {id : MessageId} (hmem : id ∈ t.kept) : id ∈ t.held ∧ id ∈ t.renewed := by
  obtain ⟨hheld, hrenewed⟩ := List.mem_filter.mp hmem
  exact ⟨hheld, List.contains_iff_mem.mp hrenewed⟩

theorem mem_of_mem_others {id : MessageId} (hmem : id ∈ t.others) :
    id ∈ t.kept ∧ id ≠ t.message.id := by
  obtain ⟨hkept, hne⟩ := List.mem_filter.mp hmem
  exact ⟨hkept, bne_iff_ne.mp hne⟩

theorem dispatched_exchanges (t : Turn κ) :
    (t.exchanges p claim).filterMap Exchange.dispatched? = [t.message] := by
  rw [exchanges, opening, closing, recording.eq_def]
  cases t.outcome <;> rfl

theorem dispatched_seen_append (t : Turn κ) (seen : List (Occurrence κ)) :
    (exchangesOf (t.seen p claim ++ seen)).filterMap Exchange.dispatched? =
      t.message :: (exchangesOf seen).filterMap Exchange.dispatched? := by
  rw [exchangesOf_seen_append, List.filterMap_append, dispatched_exchanges]
  rfl

theorem dispatched_recording (message : Message) (time : Instant) (reply : Except Failure Unit)
    (outcome : Except Failure DispatchOutcome) :
    (p.recording claim message time reply outcome).dispatched? = none := by
  cases outcome <;> rfl

theorem renewed_recording (message : Message) (time : Instant) (reply : Except Failure Unit)
    (outcome : Except Failure DispatchOutcome) :
    (p.recording claim message time reply outcome).renewed? = none := by
  cases outcome <;> rfl

theorem breaksOff_recording (message : Message) (time : Instant) (reply : Except Failure Unit)
    (outcome : Except Failure DispatchOutcome) :
    (p.recording claim message time reply outcome).breaksOff = breaksOff reply := by
  cases outcome <;> rfl

/-- The only dispatch of a turn is that of its message. -/
theorem eq_of_dispatch_mem {message : Message} {heartbeat : Heartbeat}
    {outcome : Except Failure DispatchOutcome}
    (hmem : ⟨.dispatch message heartbeat, outcome⟩ ∈ t.exchanges p claim) :
    t.message = message ∧ t.heartbeat p claim = heartbeat ∧ t.outcome = outcome := by
  rcases hmem with _ | ⟨_, _ | ⟨_, _ | ⟨_, _ | ⟨_, _ | ⟨_, hmem⟩⟩⟩⟩⟩
  · exact ⟨rfl, rfl, rfl⟩
  · have hnone := congrArg Exchange.dispatched? (List.mem_singleton.mp hmem)
    rw [dispatched_recording] at hnone
    cases hnone

/-- The only mark of a turn is its record. -/
theorem recording_of_mark_mem {c : ClaimToken} {id : MessageId} {time : Instant}
    {reply : Except Failure Unit}
    (hmem : ⟨.store (.markProcessed c id time), reply⟩ ∈ t.exchanges p claim) :
    p.recording claim t.message t.time t.reply t.outcome =
      ⟨.store (.markProcessed c id time), reply⟩ := by
  rcases hmem with _ | ⟨_, _ | ⟨_, _ | ⟨_, _ | ⟨_, _ | ⟨_, hmem⟩⟩⟩⟩⟩
  exact (List.mem_singleton.mp hmem).symm

/-- A turn makes one mark, which says whether its dispatch succeeded. -/
theorem marks_exchanges (t : Turn κ) : (t.exchanges p claim).filterMap Exchange.mark? =
    (t.exchanges p claim).filterMap Exchange.outcome? := by
  rw [exchanges, opening, closing, recording.eq_def]
  cases t.outcome <;> rfl

/-- Of the exchanges of a turn only its renewal says what is held, and that includes the message. -/
theorem pairwise_renewedBefore {log : List Exchange} (hheld : t.message.id ∈ t.kept)
    (hlater : ∀ y ∈ log, ∀ m ∈ y.dispatched?, m.id ∈ t.renewed)
    (hlog : log.Pairwise Exchange.RenewedBefore) :
    (t.exchanges p claim ++ log).Pairwise Exchange.RenewedBefore := by
  have hclosing : (t.closing p claim ++ log).Pairwise Exchange.RenewedBefore :=
    renewedBefore_cons rfl (renewedBefore_cons (renewed_recording ..) hlog)
  refine renewedBefore_cons rfl (renewedBefore_cons rfl
    (.cons ?_ (renewedBefore_cons rfl hclosing)))
  rintro y hy _ ⟨⟩ m hm
  rcases hy with _ | ⟨_, _ | ⟨_, _ | ⟨_, hy⟩⟩⟩
  · cases hm
    exact (mem_of_mem_kept hheld).2
  · cases hm
  · rw [dispatched_recording] at hm
    cases hm
  · exact hlater y hy m hm

/-- Of the exchanges of a turn only the mark can break off. -/
theorem pairwise_quietAfter {log : List Exchange}
    (hlater : breaksOff t.reply → ∀ y ∈ log, y.dispatched? = none)
    (hlog : log.Pairwise Exchange.QuietAfter) :
    (t.exchanges p claim ++ log).Pairwise Exchange.QuietAfter := by
  have hrecording : ((p.recording claim t.message t.time t.reply t.outcome) :: log).Pairwise
      Exchange.QuietAfter := by
    refine .cons (fun y hy hbreaks => ?_) hlog
    rw [breaksOff_recording] at hbreaks
    exact hlater hbreaks y hy
  exact quietAfter_cons rfl (quietAfter_cons rfl (quietAfter_cons rfl (quietAfter_cons rfl
    (quietAfter_cons rfl hrecording))))

end Turn

namespace Course

/-- What is dispatched was held. -/
theorem dispatched_held (hcourse : Course D p claim left held seen) :
    ∀ m ∈ (exchangesOf seen).filterMap Exchange.dispatched?, m.id ∈ held := by
  induction hcourse with
  | finished | stopped | cutOff => intro m hmem; cases hmem
  | passedOver now renewed hgone hrest ih =>
      exact fun m hmem => List.mem_of_mem_filter (ih m hmem)
  | attempted t hheld hdispatch hgoesOn hrest ih =>
      intro m hmem
      rw [Turn.dispatched_seen_append] at hmem
      rcases List.mem_cons.mp hmem with rfl | hmem
      · exact (Turn.mem_of_mem_kept hheld).1
      · exact (Turn.mem_of_mem_kept (Turn.mem_of_mem_others (ih m hmem)).1).1
  | brokenOff rest t released hheld hdispatch hbreaks =>
      intro m hmem
      rw [Turn.dispatched_seen_append] at hmem
      rcases List.mem_cons.mp hmem with rfl | hmem
      · exact (Turn.mem_of_mem_kept hheld).1
      · cases hmem

/-- Messages are dispatched in the order of the batch. -/
theorem dispatched_sublist (hcourse : Course D p claim left held seen) :
    ((exchangesOf seen).filterMap Exchange.dispatched?).Sublist left := by
  induction hcourse with
  | finished | stopped | cutOff => exact List.nil_sublist _
  | passedOver now renewed hgone hrest ih => exact ih.cons _
  | attempted t hheld hdispatch hgoesOn hrest ih =>
      rw [Turn.dispatched_seen_append]
      exact ih.cons_cons t.message
  | brokenOff rest t released hheld hdispatch hbreaks =>
      rw [Turn.dispatched_seen_append]
      exact (List.nil_sublist rest).cons_cons t.message

/-- A message is not held any more after its turn, so nothing with its id is dispatched again. -/
theorem dispatched_nodup (hcourse : Course D p claim left held seen) :
    (((exchangesOf seen).filterMap Exchange.dispatched?).map Message.id).Nodup := by
  induction hcourse with
  | finished | stopped | cutOff => exact List.nodup_nil
  | passedOver now renewed hgone hrest ih => exact ih
  | attempted t hheld hdispatch hgoesOn hrest ih =>
      rw [Turn.dispatched_seen_append]
      refine List.nodup_cons.mpr ⟨fun hmem => ?_, ih⟩
      obtain ⟨m, hmem, hid⟩ := List.mem_map.mp hmem
      exact (Turn.mem_of_mem_others (hrest.dispatched_held m hmem)).2 hid
  | brokenOff rest t released hheld hdispatch hbreaks =>
      rw [Turn.dispatched_seen_append]
      exact List.nodup_singleton _

/-- There is one mark for each dispatch, in the same order. -/
theorem marks_eq_outcomes (hcourse : Course D p claim left held seen) :
    (exchangesOf seen).filterMap Exchange.mark? =
      (exchangesOf seen).filterMap Exchange.outcome? := by
  induction hcourse with
  | finished | stopped | cutOff => rfl
  | passedOver now renewed hgone hrest ih => exact ih
  | attempted t hheld hdispatch hgoesOn hrest ih =>
      rw [Turn.exchangesOf_seen_append, List.filterMap_append, List.filterMap_append,
        t.marks_exchanges, ih]
  | brokenOff rest t released hheld hdispatch hbreaks =>
      rw [Turn.exchangesOf_seen_append, List.filterMap_append, List.filterMap_append,
        t.marks_exchanges]
      rfl

/-- What is dispatched was returned by all renewals before. -/
theorem renewed_before_dispatch (hcourse : Course D p claim left held seen) :
    (exchangesOf seen).Pairwise Exchange.RenewedBefore := by
  induction hcourse with
  | finished => exact .nil
  | stopped => exact renewedBefore_cons rfl (renewedBefore_cons rfl .nil)
  | cutOff =>
      exact renewedBefore_cons rfl (renewedBefore_cons rfl (renewedBefore_cons rfl
        (renewedBefore_cons rfl .nil)))
  | passedOver now renewed hgone hrest ih =>
      refine renewedBefore_cons rfl (renewedBefore_cons rfl (.cons ?_ ih))
      rintro y hy _ ⟨⟩ m hm
      have hkept := hrest.dispatched_held m (List.mem_filterMap.mpr ⟨y, hy, hm⟩)
      exact List.contains_iff_mem.mp (List.mem_filter.mp hkept).2
  | attempted t hheld hdispatch hgoesOn hrest ih =>
      rw [Turn.exchangesOf_seen_append]
      refine Turn.pairwise_renewedBefore hheld (fun y hy m hm => ?_) ih
      have hothers := hrest.dispatched_held m (List.mem_filterMap.mpr ⟨y, hy, hm⟩)
      exact (Turn.mem_of_mem_kept (Turn.mem_of_mem_others hothers).1).2
  | brokenOff rest t released hheld hdispatch hbreaks =>
      rw [Turn.exchangesOf_seen_append]
      refine Turn.pairwise_renewedBefore hheld (fun y hy m hm => ?_) (List.pairwise_singleton _ _)
      cases List.mem_singleton.mp hy
      cases hm

/-- What breaks off comes last, but for giving back what is held. -/
theorem quiet_after_failure (hcourse : Course D p claim left held seen) :
    (exchangesOf seen).Pairwise Exchange.QuietAfter := by
  induction hcourse with
  | finished => exact .nil
  | stopped => exact quietAfter_cons rfl (List.pairwise_singleton _ _)
  | cutOff message rest held now failure released =>
      refine quietAfter_cons rfl (quietAfter_cons rfl (.cons (fun y hy _ => ?_)
        (List.pairwise_singleton _ _)))
      cases List.mem_singleton.mp hy
      rfl
  | passedOver now renewed hgone hrest ih =>
      exact quietAfter_cons rfl (quietAfter_cons rfl (quietAfter_cons rfl ih))
  | attempted t hheld hdispatch hgoesOn hrest ih =>
      rw [Turn.exchangesOf_seen_append]
      refine Turn.pairwise_quietAfter (fun hbreaks => ?_) ih
      rw [hgoesOn] at hbreaks
      cases hbreaks
  | brokenOff rest t released hheld hdispatch hbreaks =>
      rw [Turn.exchangesOf_seen_append]
      refine Turn.pairwise_quietAfter (fun _ y hy => ?_) (List.pairwise_singleton _ _)
      cases List.mem_singleton.mp hy
      rfl

/-- Messages are dispatched and marked in their turns only. -/
theorem exists_turn (hcourse : Course D p claim left held seen)
    (hmem : x ∈ (exchangesOf seen).filter Exchange.isOfTurn) :
    ∃ t : Turn κ, t.seen p claim <:+: seen ∧ x ∈ t.exchanges p claim ∧ t.message ∈ left ∧
      t.message.id ∈ t.kept ∧ D t.message (t.heartbeat p claim) t.interludes t.outcome := by
  induction hcourse with
  | finished | stopped | cutOff => cases hmem
  | passedOver now renewed hgone hrest ih =>
      obtain ⟨t, hseen, hx, hmessage, hheld⟩ := ih hmem
      exact ⟨t, hseen.trans (List.suffix_append [_, _, _] _).isInfix, hx, .tail _ hmessage, hheld⟩
  | attempted t hheld hdispatch hgoesOn hrest ih =>
      rw [Turn.exchangesOf_seen_append, List.filter_append, List.mem_append] at hmem
      rcases hmem with hmem | hmem
      · exact ⟨t, (List.prefix_append _ _).isInfix, List.mem_of_mem_filter hmem, .head _, hheld,
          hdispatch⟩
      · obtain ⟨t, hseen, hx, hmessage, hheld⟩ := ih hmem
        exact ⟨t, hseen.trans (List.suffix_append _ _).isInfix, hx, .tail _ hmessage, hheld⟩
  | brokenOff rest t released hheld hdispatch hbreaks =>
      rw [Turn.exchangesOf_seen_append, List.filter_append, List.mem_append] at hmem
      rcases hmem with hmem | hmem
      · exact ⟨t, (List.prefix_append _ _).isInfix, List.mem_of_mem_filter hmem, .head _, hheld,
          hdispatch⟩
      · cases hmem

end Course

/-- A message is marked as processed at the end of a turn, in which it was dispatched. -/
theorem exists_turn_of_marked {result : Except Failure BatchReport} {c : ClaimToken}
    {id : MessageId} {time : Instant} {reply : Except Failure Unit}
    (hshows : (p.cycle claim).Shows D seen result)
    (hmem : .exchanged ⟨.store (.markProcessed c id time), reply⟩ ∈ seen) :
    ∃ t : Turn κ, t.seen p claim <:+: seen ∧
      D t.message (t.heartbeat p claim) t.interludes t.outcome ∧
      p.recording claim t.message t.time t.reply t.outcome =
        ⟨.store (.markProcessed c id time), reply⟩ ∧
      ∃ now fetched, .exchanged ⟨.store (.fetch claim p.batchSize now p.lease), fetched⟩ ∈ seen ∧
        t.message ∈ batchOf fetched := by
  obtain ⟨now, fetched, later, rfl, hcourse⟩ := course_of_cycle hshows
  rcases hmem with _ | ⟨_, _ | ⟨_, hmem⟩⟩
  have hlogged : ⟨.store (.markProcessed c id time), reply⟩ ∈ exchangesOf later :=
    List.mem_filterMap.mpr ⟨_, hmem, rfl⟩
  obtain ⟨t, hseen, hmem, hmessage, _, hdispatch⟩ :=
    hcourse.exists_turn (List.mem_filter.mpr ⟨hlogged, rfl⟩)
  exact ⟨t, hseen.trans (List.suffix_append [_, _] _).isInfix, hdispatch,
    Turn.recording_of_mark_mem hmem, now, fetched, .tail _ (.head _), hmessage⟩

/-- Let the store reply what it likes, to heartbeats too, and a stop be requested at any time. What
a cycle dispatches are messages of its batch in their order there, none of an id twice. A message is
dispatched only if the renewal right before has returned it and all earlier ones of the cycle have.
After the dispatch come what is done meanwhile and the one mark that the message gets, as processed
just if the dispatch succeeded. Once a renewal has failed, or a mark other than for a lost claim,
nothing is dispatched any more. -/
theorem dispatches_with_discipline {result : Except Failure BatchReport}
    (hshows : (p.cycle claim).Shows D seen result) :
    ∃ now reply later, seen = .exchanged ⟨.now, now⟩ ::
        .exchanged ⟨.store (.fetch claim p.batchSize now p.lease), reply⟩ :: later ∧
      let log := exchangesOf later
      let dispatched := log.filterMap Exchange.dispatched?
      dispatched.Sublist (batchOf reply) ∧
      (dispatched.map Message.id).Nodup ∧
      (∀ message heartbeat outcome, ⟨.dispatch message heartbeat, outcome⟩ ∈ log →
        ∃ t : Turn κ, t.seen p claim <:+: later ∧ t.message = message ∧
          t.heartbeat p claim = heartbeat ∧ t.outcome = outcome ∧ message.id ∈ t.renewed) ∧
      log.Pairwise Exchange.RenewedBefore ∧
      log.filterMap Exchange.mark? = log.filterMap Exchange.outcome? ∧
      log.Pairwise Exchange.QuietAfter := by
  obtain ⟨now, reply, later, hseen, hcourse⟩ := course_of_cycle hshows
  refine ⟨now, reply, later, hseen, hcourse.dispatched_sublist, hcourse.dispatched_nodup,
    fun message heartbeat outcome hmem => ?_, hcourse.renewed_before_dispatch,
    hcourse.marks_eq_outcomes, hcourse.quiet_after_failure⟩
  obtain ⟨t, hinfix, hmem, _, hheld, _⟩ :=
    hcourse.exists_turn (List.mem_filter.mpr ⟨hmem, rfl⟩)
  obtain ⟨rfl, rfl, rfl⟩ := Turn.eq_of_dispatch_mem hmem
  exact ⟨t, hinfix, rfl, rfl, rfl, (Turn.mem_of_mem_kept hheld).2⟩

/-- A batch with a message twice, of which the second is taken over for a while. The claim on the
first is lost as its outcome is recorded, and the store fails at the record of the last. -/
def contested (p : Processor) (claim : ClaimToken) : List (Occurrence Unit) :=
  let first := Message.numbered 1 "order" .epoch
  let second := Message.numbered 2 "order" .epoch
  let third := Message.numbered 3 "invoice" .epoch
  let renewing (held renewed : List MessageId) : List (Occurrence Unit) :=
    [.exchanged ⟨.stopRequested, false⟩, .exchanged ⟨.now, .epoch⟩,
      .exchanged ⟨.store (.renew claim held .epoch p.lease), .ok renewed⟩]
  let refused : Except Failure DispatchOutcome := .error (.dispatch third.tag "mailer: no address")
  [.exchanged ⟨.now, .epoch⟩, .exchanged ⟨.store (.fetch claim p.batchSize .epoch p.lease),
    .ok [first, second, first, third]⟩] ++
  renewing [first.id, second.id, first.id, third.id] [first.id, third.id] ++
  [.exchanged ⟨.dispatch first ⟨claim, [first.id, first.id, third.id], p.lease⟩,
      .ok (.delivered 1)⟩,
    .meanwhile (.call () first.tag first.content),
    .meanwhile (.beat ⟨.epoch, .error (.unavailable "busy")⟩), .exchanged ⟨.now, .epoch⟩,
    .exchanged ⟨.store (.markProcessed claim first.id .epoch), .error (.claimLost first.id)⟩] ++
  renewing [third.id] [third.id, second.id] ++ renewing [third.id] [third.id, first.id] ++
  renewing [third.id] [third.id] ++
  [.exchanged ⟨.dispatch third ⟨claim, [third.id], p.lease⟩, refused⟩,
    .meanwhile (.call () third.tag third.content), .exchanged ⟨.now, .epoch⟩,
    .exchanged (p.recording claim third .epoch (.error (.unavailable "busy")) refused),
    .exchanged ⟨.store (.release claim []), .ok ()⟩]

theorem contested_shows (p : Processor) (claim : ClaimToken) :
    (p.cycle claim).Shows (fun _ _ _ _ => True) (contested p claim)
      (.error (.unavailable "busy")) := by
  refine .ask _ [] rfl (.ask _ [] rfl ?_)
  refine .ask _ [] rfl (.ask _ [] rfl (.ask _ [] rfl ?_))
  refine .ask _ [_, _] trivial (.ask _ [] rfl (.ask _ [] rfl ?_))
  refine .ask _ [] rfl (.ask _ [] rfl (.ask _ [] rfl ?_))
  refine .ask _ [] rfl (.ask _ [] rfl (.ask _ [] rfl ?_))
  refine .ask _ [] rfl (.ask _ [] rfl (.ask _ [] rfl ?_))
  refine .ask _ [_] trivial (.ask _ [] rfl (.ask _ [] rfl (.ask _ [] rfl ?_)))
  exact .done _

/-- The first message is dispatched once and marked once, and so is the last. -/
theorem contested_with_discipline :
    let p : Processor := ⟨.immediate, 4, .ofSeconds 5, .ofSeconds 30⟩
    let seen := contested p (.numbered 1)
    let log := (exchangesOf seen).drop 2
    let first := Message.numbered 1 "order" .epoch
    let third := Message.numbered 3 "invoice" .epoch
    (p.cycle (.numbered 1)).Shows (fun _ _ _ _ => True) seen (.error (.unavailable "busy")) ∧
      log.filterMap Exchange.dispatched? = [first, third] ∧ [first.id, third.id].Nodup ∧
      log.filterMap Exchange.mark? = [(first.id, true), (third.id, false)] := by
  intro p seen log first third
  have hshows := contested_shows p (.numbered 1)
  obtain ⟨now, reply, later, hseen, _, hnodup, _, _, hmarks, _⟩ :=
    dispatches_with_discipline hshows
  have hlog : exchangesOf later = log :=
    congrArg (fun seen => (exchangesOf seen).drop 2) hseen.symm
  rw [hlog] at hnodup hmarks
  exact ⟨hshows, rfl, hnodup, hmarks⟩

end Processor

end Outbox
