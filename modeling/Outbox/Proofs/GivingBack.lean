import Outbox.Proofs.Discipline

/-! # What a cycle gives back

A cycle gives messages back at a request to stop, and when the store has failed it. Whatever the
store replies, these are the messages that it has not attempted and that all its renewals have
returned. They are given back in one call, after which the cycle makes no other.
-/

namespace Outbox

/-- The messages on which the claim is given up. -/
def Exchange.released? : Exchange → Option (List MessageId)
  | ⟨.store (.release _ ids), _⟩ => some ids
  | _ => none

namespace Processor

variable {κ : Type} {D : Dispatching κ} {p : Processor} {claim : ClaimToken} {left : List Message}
  {held held' : List MessageId} {seen later : List (Occurrence κ)}

theorem mem_stillHeld {ids : List MessageId} {visited : List Message}
    {renewals : List (List MessageId)} {id : MessageId} : id ∈ stillHeld ids visited renewals ↔
      id ∈ ids ∧ id ∉ visited.map Message.id ∧ ∀ renewed ∈ renewals, id ∈ renewed := by
  rw [stillHeld, List.mem_filter]
  simp [-List.mem_map]

theorem stillHeld_nil (ids : List MessageId) : stillHeld ids [] [] = ids :=
  List.filter_eq_self.mpr fun _ _ => rfl

theorem stillHeld_renewed (ids renewed : List MessageId) (visited : List Message)
    (renewals : List (List MessageId)) :
    stillHeld (ids.filter renewed.contains) visited renewals =
      stillHeld ids visited (renewed :: renewals) := by
  simp only [stillHeld, List.filter_filter]
  refine List.filter_congr fun id _ => ?_
  rw [List.all_cons]
  ac_rfl

namespace Turn

variable (t : Turn κ) (p : Processor) (claim : ClaimToken)

theorem exchangesOf_seen : exchangesOf (t.seen p claim) = t.exchanges p claim := by
  rw [seen, exchangesOf_append, exchangesOf_append, exchangesOf_meanwhile]
  rfl

theorem renewed_exchanges : (t.exchanges p claim).filterMap Exchange.renewed? = [t.renewed] := by
  rw [exchanges, opening, closing, recording.eq_def]
  cases t.outcome <;> rfl

theorem released_exchanges : (t.exchanges p claim).filterMap Exchange.released? = [] := by
  rw [exchanges, opening, closing, recording.eq_def]
  cases t.outcome <;> rfl

end Turn

/-- Nothing is given back, or it is done once and at the very end. Of what was held in the beginning
it is then what has not been dispatched, as far as all renewals have returned it. -/
def GivesBack (claim : ClaimToken) (held : List MessageId) (seen : List (Occurrence κ)) : Prop :=
  (exchangesOf seen).filterMap Exchange.released? = [] ∨
    ∃ before reply,
      let log := exchangesOf before
      let kept := stillHeld held (log.filterMap Exchange.dispatched?)
        (log.filterMap Exchange.renewed?)
      seen = before ++ [.exchanged ⟨.store (.release claim kept), reply⟩] ∧
        log.filterMap Exchange.released? = []

theorem givesBack_release (held : List MessageId) (reply : Except Failure Unit) :
    GivesBack claim held
      ([.exchanged ⟨.store (.release claim held), reply⟩] : List (Occurrence κ)) := by
  refine .inr ⟨[], reply, ?_, rfl⟩
  change _ = [Occurrence.exchanged ⟨.store (.release claim (stillHeld held [] [])), reply⟩]
  rw [stillHeld_nil]

/-- What the first part leaves of what was held is what the later part can give back. -/
theorem GivesBack.append (hlater : GivesBack claim held' later) (first : List (Occurrence κ))
    (hfirst : (exchangesOf first).filterMap Exchange.released? = [])
    (hheld : ∀ visited renewals, stillHeld held' visited renewals =
      stillHeld held ((exchangesOf first).filterMap Exchange.dispatched? ++ visited)
        ((exchangesOf first).filterMap Exchange.renewed? ++ renewals)) :
    GivesBack claim held (first ++ later) := by
  have hnothing {after : List (Occurrence κ)}
      (hnone : (exchangesOf after).filterMap Exchange.released? = []) :
      (exchangesOf (first ++ after)).filterMap Exchange.released? = [] := by
    rw [exchangesOf_append, List.filterMap_append, hfirst, hnone, List.nil_append]
  rcases hlater with hnone | ⟨before, reply, rfl, hnone⟩
  · exact .inl (hnothing hnone)
  · refine .inr ⟨first ++ before, reply, ?_, hnothing hnone⟩
    rw [hheld, exchangesOf_append, List.filterMap_append, List.filterMap_append,
      List.append_assoc]

/-- A turn gives nothing back, and leaves the others to what comes after it. -/
theorem Turn.givesBack (t : Turn κ) (hlater : GivesBack claim t.others later) :
    GivesBack claim t.held (t.seen p claim ++ later) := by
  refine hlater.append _ ?_ fun visited renewals => ?_
  · rw [exchangesOf_seen, released_exchanges]
  · rw [exchangesOf_seen, dispatched_exchanges, renewed_exchanges]
    exact stillHeld_cons ..

/-- Along every course what is given back, if anything, is what is still held. -/
theorem Course.givesBack (hcourse : Course D p claim left held seen) :
    GivesBack claim held seen := by
  induction hcourse with
  | finished => exact .inl rfl
  | stopped message rest held reply =>
      exact (givesBack_release held reply).append [_] rfl fun _ _ => rfl
  | cutOff message rest held now failure reply =>
      exact (givesBack_release held reply).append [_, _, _] rfl fun _ _ => rfl
  | passedOver now renewed hgone hrest ih =>
      exact ih.append [_, _, _] rfl (stillHeld_renewed _ renewed)
  | attempted t hheld hdispatch hgoesOn hrest ih => exact t.givesBack ih
  | brokenOff rest t reply hheld hdispatch hbreaks =>
      exact t.givesBack (givesBack_release t.others reply)

/-- Let the store reply what it likes and a stop be requested at any time. Should a cycle give
messages back at all, it does so in one call, and with that it ends: nothing is renewed, dispatched
or marked any more. What it gives back are those messages of its batch that it has not dispatched
and that all its renewals before dispatches have returned, except for renewals that failed. -/
theorem gives_back_what_is_unattempted {result : Except Failure BatchReport}
    (hshows : (p.cycle claim).Shows D seen result) :
    ∃ now reply later, seen = .exchanged ⟨.now, now⟩ ::
        .exchanged ⟨.store (.fetch claim p.batchSize now p.lease), reply⟩ :: later ∧
      ((exchangesOf later).filterMap Exchange.released? = [] ∨
        ∃ before ids released,
          later = before ++ [.exchanged ⟨.store (.release claim ids), released⟩] ∧
          let log := exchangesOf before
          log.filterMap Exchange.released? = [] ∧
          ids.Sublist ((batchOf reply).map Message.id) ∧
          ∀ id, id ∈ ids ↔ id ∈ (batchOf reply).map Message.id ∧
            id ∉ (log.filterMap Exchange.dispatched?).map Message.id ∧
            ∀ renewed ∈ log.filterMap Exchange.renewed?, id ∈ renewed) := by
  obtain ⟨now, reply, later, hseen, hcourse⟩ := course_of_cycle hshows
  refine ⟨now, reply, later, hseen, ?_⟩
  rcases hcourse.givesBack with hnone | ⟨before, released, hlast, hnone⟩
  · exact .inl hnone
  · exact .inr ⟨before, _, released, hlast, hnone, List.filter_sublist, fun id => mem_stillHeld⟩

/-- Of a batch of four the first message is dispatched, while the second has been taken over. Then a
stop is requested. -/
def interrupted (p : Processor) (claim : ClaimToken) : List (Occurrence Unit) :=
  let first := Message.numbered 1 "order" .epoch
  let second := Message.numbered 2 "order" .epoch
  let third := Message.numbered 3 "invoice" .epoch
  let fourth := Message.numbered 4 "order" .epoch
  [.exchanged ⟨.now, .epoch⟩, .exchanged ⟨.store (.fetch claim p.batchSize .epoch p.lease),
      .ok [first, second, third, fourth]⟩,
    .exchanged ⟨.stopRequested, false⟩, .exchanged ⟨.now, .epoch⟩,
    .exchanged ⟨.store (.renew claim [first.id, second.id, third.id, fourth.id] .epoch p.lease),
      .ok [first.id, third.id, fourth.id]⟩,
    .exchanged ⟨.dispatch first ⟨claim, [first.id, third.id, fourth.id], p.lease⟩,
      .ok (.delivered 1)⟩,
    .meanwhile (.call () first.tag first.content), .exchanged ⟨.now, .epoch⟩,
    .exchanged ⟨.store (.markProcessed claim first.id .epoch), .ok ()⟩,
    .exchanged ⟨.stopRequested, true⟩,
    .exchanged ⟨.store (.release claim [third.id, fourth.id]), .ok ()⟩]

theorem interrupted_shows (p : Processor) (claim : ClaimToken) :
    (p.cycle claim).Shows (fun _ _ _ _ => True) (interrupted p claim)
      (.ok { fetched := 4, processed := 1, released := 2 }) := by
  refine .ask _ [] rfl (.ask _ [] rfl ?_)
  refine .ask _ [] rfl (.ask _ [] rfl (.ask _ [] rfl ?_))
  refine .ask _ [_] trivial (.ask _ [] rfl (.ask _ [] rfl ?_))
  exact .ask _ [] rfl (.ask _ [] rfl (.done _))

/-- The third and the fourth message are given back. -/
theorem interrupted_gives_back :
    let p : Processor := ⟨.immediate, 4, .ofSeconds 5, .ofSeconds 30⟩
    let seen := interrupted p (.numbered 1)
    let third := (Message.numbered 3 "invoice" .epoch).id
    let fourth := (Message.numbered 4 "order" .epoch).id
    (p.cycle (.numbered 1)).Shows (fun _ _ _ _ => True) seen
        (.ok { fetched := 4, processed := 1, released := 2 }) ∧
      ∃ before ids, seen.drop 2 =
          before ++ [.exchanged ⟨.store (.release (.numbered 1) ids), .ok ()⟩] ∧
        ids = [third, fourth] ∧
        ∀ id ∈ ids, id ∉ ((exchangesOf before).filterMap Exchange.dispatched?).map Message.id := by
  intro p seen third fourth
  have hshows := interrupted_shows p (.numbered 1)
  obtain ⟨now, reply, later, hseen, hcases⟩ := gives_back_what_is_unattempted hshows
  have hlater : seen.drop 2 = later := congrArg (List.drop 2) hseen
  rcases hcases with hnone | ⟨before, ids, released, hlast, _, _, hmem⟩
  · rw [← hlater] at hnone
    cases hnone
  · have hends : (seen.drop 2).dropLast ++
        [.exchanged ⟨.store (.release (.numbered 1) [third, fourth]), .ok ()⟩] =
          before ++ [.exchanged ⟨.store (.release (.numbered 1) ids), released⟩] :=
      hlater.trans hlast
    cases (List.append_inj' hends rfl).2
    exact ⟨hshows, before, _, hlater.trans hlast, rfl, fun id hid => ((hmem id).mp hid).2.1⟩

end Processor

end Outbox
