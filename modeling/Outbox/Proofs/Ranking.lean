import Outbox.Proofs.Dispatches
import Outbox.Status

/-! # The messages that failed most often

Messages that fail are ranked by their failures and then by their schedule. Among those of one rank
the order means nothing, and which of them are listed may depend on the order in which messages come
up. So a list of the worst is told by what it has: as many messages that qualify as there is room
for, by rank, and none is left out that ranks before one of them. Just these lists are what sorting
by rank can lead to. The table answers with one of them, and a status shows it as it is.
-/

namespace Outbox

namespace Message

/-- The message has failed more often than the other one, or as often and is scheduled earlier. -/
def Outranks (a b : Message) : Prop :=
  b.retryCount < a.retryCount ∨ a.retryCount = b.retryCount ∧ a.scheduledAt < b.scheduledAt

instance (a b : Message) : Decidable (a.Outranks b) := inferInstanceAs (Decidable (_ ∨ _))

/-- The message is still to be delivered, and has failed so often and at least once. -/
def IsStuck (m : Message) (minRetryCount : UInt32) : Prop :=
  m.processedAt = none ∧ max 1 minRetryCount.toNat ≤ m.retryCount.toNat

instance (m : Message) (minRetryCount : UInt32) : Decidable (m.IsStuck minRetryCount) :=
  inferInstanceAs (Decidable (_ ∧ _))

/-- What is listed of messages that come up in this order. Those of one rank stay in it. -/
def worst (messages : List Message) (minRetryCount : UInt32) (limit : Nat) : List Message :=
  ((messages.filter (·.IsStuck minRetryCount)).mergeSort fun a b => ¬ b.Outranks a).take limit

variable {a b c : Message}

/-- A message is stuck if it is open and has failed often enough, and at least once. -/
theorem isStuck_iff {m : Message} {minRetryCount : UInt32} : m.IsStuck minRetryCount ↔
    m.isProcessed = false ∧ 0 < m.retryCount ∧ minRetryCount ≤ m.retryCount := by
  have hopen : m.processedAt = none ↔ m.isProcessed = false := by simp [isProcessed]
  rw [IsStuck, hopen, UInt32.lt_iff_toNat_lt, UInt32.le_iff_toNat_le, Nat.max_le]
  rfl

/-- More failures come first, and among equals the earlier schedule. -/
theorem outranks_iff : a.Outranks b ↔
    b.retryCount.toNat < a.retryCount.toNat ∨ a.retryCount.toNat = b.retryCount.toNat ∧
      a.scheduledAt.rank < b.scheduledAt.rank := by
  rw [Outranks, UInt32.lt_iff_toNat_lt, ← UInt32.toNat_inj, Instant.lt_iff]

theorem not_outranks_trans (hab : ¬ b.Outranks a) (hbc : ¬ c.Outranks b) : ¬ c.Outranks a := by
  rw [outranks_iff] at *
  omega

theorem not_outranks_total (a b : Message) : ¬ b.Outranks a ∨ ¬ a.Outranks b := by
  rw [outranks_iff, outranks_iff]
  omega

theorem ranked_mergeSort (messages : List Message) :
    (messages.mergeSort fun a b => ¬ b.Outranks a).Pairwise fun a b => ¬ b.Outranks a := by
  refine (List.pairwise_mergeSort ?_ ?_ messages).imp of_decide_eq_true
  · intro a b c hab hbc
    exact decide_eq_true (not_outranks_trans (of_decide_eq_true hab) (of_decide_eq_true hbc))
  · intro a b
    simpa only [Bool.or_eq_true, decide_eq_true_eq] using not_outranks_total a b

/-- Ids settle what ranks leave open. -/
theorem worseThan_iff : a.worseThan b ↔
    a.Outranks b ∨ ¬ b.Outranks a ∧ a.id.ulid.value ≤ b.id.ulid.value := by
  have hworse : a.worseThan b ↔
      b.retryCount.toNat < a.retryCount.toNat ∨ a.retryCount.toNat = b.retryCount.toNat ∧
        (a.scheduledAt.rank < b.scheduledAt.rank ∨ a.scheduledAt.rank = b.scheduledAt.rank ∧
          a.id.ulid.value ≤ b.id.ulid.value) := by
    simp only [worseThan, Bool.or_eq_true, Bool.and_eq_true, decide_eq_true_eq, Instant.rank_inj,
      UInt32.lt_iff_toNat_lt, ← UInt32.toNat_inj]
    rfl
  rw [hworse, outranks_iff, outranks_iff]
  omega

theorem pairwise_mergeSort_worseThan (messages : List Message) :
    (messages.mergeSort worseThan).Pairwise fun a b => a.worseThan b := by
  refine List.pairwise_mergeSort ?_ ?_ messages
  · intro a b c hab hbc
    rw [worseThan_iff, outranks_iff, outranks_iff] at *
    omega
  · intro a b
    rw [Bool.or_eq_true, worseThan_iff, worseThan_iff, outranks_iff, outranks_iff]
    omega

/-- Sorted by rank and id, no message comes after one that it outranks. -/
theorem ranked_mergeSort_worseThan (messages : List Message) :
    (messages.mergeSort worseThan).Pairwise fun a b => ¬ b.Outranks a := by
  refine (pairwise_mergeSort_worseThan messages).imp fun {a b} hworse => ?_
  rw [worseThan_iff, outranks_iff, outranks_iff] at *
  omega

end Message

namespace Table

/-- The messages that qualify for a list. -/
def stuck (t : Table) (minRetryCount : UInt32) : List Message :=
  t.messages.filter (·.IsStuck minRetryCount)

/-- The list has the worst messages of the table. -/
structure ListsWorst (t : Table) (minRetryCount : UInt32) (limit : Nat) (listed : List Message) :
    Prop where
  length : listed.length = min limit (t.rows.countP (·.message.IsStuck minRetryCount))
  distinct : (listed.map Message.id).Nodup
  stuck : ∀ m ∈ listed, m.IsStuck minRetryCount ∧ ∃ r ∈ t.rows, r.message = m
  ranked : listed.Pairwise fun a b => ¬ b.Outranks a
  /-- Nothing is left out that ranks before what is listed. -/
  worst : ∀ r ∈ t.rows, r.message.IsStuck minRetryCount → r.message ∉ listed →
    ∀ m ∈ listed, ¬ r.message.Outranks m

variable {t : Table} {minRetryCount : UInt32} {limit : Nat} {listed queue : List Message}

theorem mem_stuck {m : Message} : m ∈ t.stuck minRetryCount ↔
    m.IsStuck minRetryCount ∧ ∃ r ∈ t.rows, r.message = m := by
  rw [stuck, List.mem_filter, decide_eq_true_eq, messages, List.mem_map, and_comm]

theorem length_stuck (t : Table) (minRetryCount : UInt32) :
    (t.stuck minRetryCount).length = t.rows.countP (·.message.IsStuck minRetryCount) := by
  rw [stuck, ← List.countP_eq_length_filter, messages, List.countP_map]
  rfl

theorem stuck_nodup (t : Table) (minRetryCount : UInt32) :
    ((t.stuck minRetryCount).map Message.id).Nodup := by
  refine List.Nodup.sublist (List.filter_sublist.map Message.id) ?_
  rw [messages, List.map_map]
  exact t.distinctIds

theorem failing_eq (t : Table) (minRetryCount : UInt32) (limit : Nat) :
    t.failing minRetryCount limit =
      ((t.stuck minRetryCount).mergeSort Message.worseThan).take limit := by
  rw [failing, stuck]
  congr 2
  refine List.filter_congr fun m _ => ?_
  rw [Bool.eq_iff_iff, decide_eq_true_eq, Message.isStuck_iff]
  simp [and_assoc]

/-- If all that qualify stand by rank, the first of them are the worst. -/
theorem listsWorst_take (limit : Nat) (hperm : queue.Perm (t.stuck minRetryCount))
    (hranked : queue.Pairwise fun a b => ¬ b.Outranks a) :
    t.ListsWorst minRetryCount limit (queue.take limit) where
  length := by rw [List.length_take, hperm.length_eq, length_stuck]
  distinct := by
    have hids : (queue.map Message.id).Nodup :=
      (hperm.map Message.id).nodup_iff.mpr (t.stuck_nodup minRetryCount)
    exact hids.sublist ((List.take_sublist limit queue).map Message.id)
  stuck m hmem := mem_stuck.mp (hperm.mem_iff.mp (List.mem_of_mem_take hmem))
  ranked := hranked.sublist (List.take_sublist limit queue)
  worst r hrow hstuck hnot m hmem := by
    have hqueued : r.message ∈ queue := hperm.mem_iff.mpr (mem_stuck.mpr ⟨hstuck, r, hrow, rfl⟩)
    rw [← List.take_append_drop limit queue] at hqueued hranked
    have hleft : r.message ∈ queue.drop limit := (List.mem_append.mp hqueued).resolve_left hnot
    exact (List.pairwise_append.mp hranked).2.2 m hmem r.message hleft

/-- Such a list is the beginning of all that is stuck, in an order of the ranks. -/
theorem ListsWorst.exists_queue (hlists : t.ListsWorst minRetryCount limit listed) :
    ∃ queue : List Message, queue.Perm (t.stuck minRetryCount) ∧
      (queue.Pairwise fun a b => ¬ b.Outranks a) ∧ queue.take limit = listed := by
  -- what is left out is put behind what is listed
  let leftOut := (t.stuck minRetryCount).filter (· ∉ listed)
  let behind := leftOut.mergeSort fun a b => ¬ b.Outranks a
  have hbehind : behind.Perm leftOut := List.mergeSort_perm _ _
  have hlisted : listed.Perm ((t.stuck minRetryCount).filter (· ∈ listed)) := by
    have hnodup := (t.stuck_nodup minRetryCount).of_map
    refine (List.perm_ext_iff_of_nodup hlists.distinct.of_map (hnodup.filter _)).mpr fun m => ?_
    rw [List.mem_filter, decide_eq_true_eq, mem_stuck]
    exact ⟨fun hmem => ⟨hlists.stuck m hmem, hmem⟩, And.right⟩
  have hperm : (listed ++ behind).Perm (t.stuck minRetryCount) := by
    refine (hlisted.append hbehind).trans ?_
    simpa [leftOut] using List.filter_append_perm (· ∈ listed) (t.stuck minRetryCount)
  refine ⟨listed ++ behind, hperm, ?_, ?_⟩
  · refine List.pairwise_append.mpr ⟨hlists.ranked, Message.ranked_mergeSort _, ?_⟩
    intro m hmem other hother
    obtain ⟨hqualifies, hout⟩ := List.mem_filter.mp (hbehind.mem_iff.mp hother)
    obtain ⟨hstuck, r, hrow, rfl⟩ := mem_stuck.mp hqualifies
    exact hlists.worst r hrow hstuck (of_decide_eq_true hout) m hmem
  · -- either nothing is left out, or the list is as long as it can be
    have hlength := hlists.length
    rw [← length_stuck, ← hperm.length_eq, List.length_append] at hlength
    rcases Nat.eq_zero_or_pos behind.length with hnone | hsome
    · rw [List.length_eq_zero_iff.mp hnone, List.append_nil, List.take_of_length_le (by omega)]
    · exact List.take_left' (by omega)

/-- A list has the worst messages just if it is what is listed of all messages in some order. -/
theorem listsWorst_iff : t.ListsWorst minRetryCount limit listed ↔
    ∃ order : List Message, order.Perm t.messages ∧
      Message.worst order minRetryCount limit = listed := by
  constructor
  · intro hlists
    obtain ⟨queue, hperm, hranked, rfl⟩ := hlists.exists_queue
    let others := t.messages.filter fun m => ¬ m.IsStuck minRetryCount
    refine ⟨queue ++ others, ?_, ?_⟩
    · refine (hperm.append_right others).trans ?_
      simpa [others, stuck] using List.filter_append_perm (·.IsStuck minRetryCount) t.messages
    · have hqueue : queue.filter (·.IsStuck minRetryCount) = queue :=
        List.filter_eq_self.mpr fun m hmem =>
          decide_eq_true (mem_stuck.mp (hperm.mem_iff.mp hmem)).1
      have hothers : others.filter (·.IsStuck minRetryCount) = [] := by
        simp [others, List.filter_filter]
      rw [Message.worst, List.filter_append, hqueue, hothers, List.append_nil,
        List.mergeSort_of_pairwise (hranked.imp decide_eq_true)]
  · rintro ⟨order, hperm, rfl⟩
    exact listsWorst_take limit ((List.mergeSort_perm _ _).trans (hperm.filter _))
      (Message.ranked_mergeSort _)

/-- The store lists the messages that failed most. -/
theorem listsWorst_failing (t : Table) (minRetryCount : UInt32) (limit : Nat) :
    t.ListsWorst minRetryCount limit (t.failing minRetryCount limit) := by
  rw [failing_eq]
  exact listsWorst_take limit (List.mergeSort_perm _ _) (Message.ranked_mergeSort_worseThan _)

end Table

/-- A status makes two calls, and shows what they are answered with. -/
theorem Status.run_collect {σ κ : Type} (answer : (q : Request) → StateM σ q.Answer)
    (r : Registry κ) {s : σ} {counts : Counts} {minRetryCount : UInt32} {limit : Nat}
    {listed : List Message} (hcounts : (answer (.store .counts) s).1 = .ok counts)
    (hlisted : (answer (.store (.failing minRetryCount limit))
      (answer (.store .counts) s).2).1 = .ok listed) :
    ((collect r minRetryCount limit).run answer s).1 =
      .ok ⟨counts, r.registeredTypes, listed.map (.ofMessage r)⟩ := by
  refine (congrArg Prod.fst (Routine.run_ask answer _ _ s)).trans ?_
  rw [hcounts]
  refine (congrArg Prod.fst (Routine.run_ask answer _ _ _)).trans ?_
  rw [hlisted]
  rfl

section Presenting

variable {κ : Type} [Named κ]

/-- A dispatch makes a call just if somebody is registered for the tag. -/
theorem Registry.recorded_ne_nil_iff {σ : Type} (r : Registry κ)
    (call : κ → MessageType → String → StateM σ CallOutcome) (tag : MessageType)
    (content : String) (s : σ) :
    (r.dispatch (recorded call) tag content (s, [])).2.2 ≠ [] ↔ r.isRegistered tag := by
  obtain ⟨made, s', _, hrecorded, hmade⟩ :=
    callAll_recorded call (r.consumersFor tag) tag content s []
  have hlength := congrArg List.length hmade
  rw [List.length_map, List.length_map] at hlength
  rw [dispatch_eq, hrecorded, isRegistered_iff, ne_eq, ne_eq, not_iff_not]
  change made = [] ↔ _
  rw [← List.length_eq_zero_iff, hlength, List.length_eq_zero_iff]

namespace StuckMessage

/-- This is the message as operators see it. Whatever consumers do, it is said to have one just if
a dispatch of the message calls one. -/
structure Presents (shown : StuckMessage) (r : Registry κ) (m : Message) : Prop where
  id : shown.id = m.id
  tag : shown.tag = m.tag
  retryCount : shown.retryCount = m.retryCount
  error : shown.error = m.error
  hasConsumer {σ : Type} (call : κ → MessageType → String → StateM σ CallOutcome) (s : σ) :
    shown.hasConsumer ↔ (r.dispatch (Registry.recorded call) m.tag m.content (s, [])).2.2 ≠ []

theorem presents_iff {shown : StuckMessage} {r : Registry κ} {m : Message} :
    shown.Presents r m ↔ ofMessage r m = shown := by
  constructor
  · intro hpresents
    obtain ⟨id, tag, retryCount, error, hasConsumer⟩ := shown
    obtain ⟨rfl, rfl, rfl, rfl, hconsumer⟩ := hpresents
    have hregistered : r.isRegistered m.tag ↔ hasConsumer := by
      rw [← r.recorded_ne_nil_iff (fun _ _ _ => pure .succeeded) m.tag m.content ()]
      exact (hconsumer _ ()).symm
    rw [ofMessage, Bool.eq_iff_iff.mpr hregistered]
  · rintro rfl
    exact ⟨rfl, rfl, rfl, rfl, fun call s => (r.recorded_ne_nil_iff call m.tag m.content s).symm⟩

end StuckMessage

/-- The table always answers with a list of its worst messages as they stand: there are as many that
qualify as there is room for, each once and by rank, and nothing left out ranks before one of them.
Just such lists are what sorting by rank makes of the messages, in whatever order they come up. A
status shows the messages that the table lists when it comes to that, in the same order, although
the table may have become another one since the status was begun. -/
theorem status_lists_worst (t : Table) (r : Registry κ) (minRetryCount : UInt32) (limit : Nat) :
    ∃ listed, t.answer (.failing minRetryCount limit) = (.ok listed, t) ∧
      t.ListsWorst minRetryCount limit listed ∧
      (∀ other, t.ListsWorst minRetryCount limit other ↔
        ∃ order : List Message, order.Perm t.messages ∧
          Message.worst order minRetryCount limit = other) ∧
      ∀ (σ : Type) (table : σ → Table) (answer : (q : Request) → StateM σ q.Answer) (s : σ),
        (∀ call s, (answer (.store call) s).1 = ((table s).answer call).1) →
        table (answer (.store .counts) s).2 = t →
        ∃ status, ((Status.collect r minRetryCount limit).run answer s).1 = .ok status ∧
          List.Forall₂ (fun m shown => StuckMessage.Presents shown r m) listed status.stuck := by
  refine ⟨t.failing minRetryCount limit, rfl, t.listsWorst_failing minRetryCount limit,
    fun other => Table.listsWorst_iff, fun σ table answer s hanswers htable => ?_⟩
  have hlisted : (answer (.store (.failing minRetryCount limit))
      (answer (.store .counts) s).2).1 = .ok (t.failing minRetryCount limit) := by
    rw [hanswers, htable]
    rfl
  refine ⟨_, Status.run_collect answer r (hanswers .counts s) hlisted, ?_⟩
  rw [List.forall₂_map_right_iff, List.forall₂_same]
  exact fun m _ => StuckMessage.presents_iff.mpr rfl

end Presenting

/-- A message that has failed so often. -/
def Message.worn (n : Fin 16) (tag : String) (scheduledAt : Instant) (retryCount : UInt32) :
    Message :=
  { Message.numbered n tag scheduledAt with error := some "down", retryCount := retryCount }

/-- The second message was processed in the end, and the fourth one never failed. -/
def strained : Table where
  rows := [⟨.worn 1 "order" (.numbered 5) 2, none⟩,
    ⟨(Message.worn 2 "order" .epoch 9).markProcessed .epoch, none⟩,
    ⟨.worn 3 "refund" .epoch 3, some ⟨.numbered 1, .numbered 1⟩⟩,
    ⟨.numbered 4 "order" .epoch, none⟩, ⟨.worn 5 "order" .epoch 2, none⟩]
  entities := []
  distinctIds := by decide

/-- Of the messages that are stuck two are listed, the ones with the most failures. -/
theorem failing_strained :
    strained.failing 0 2 = [.worn 3 "refund" .epoch 3, .worn 5 "order" .epoch 2] := by
  have hsorted : (strained.stuck 0).mergeSort Message.worseThan =
      [.worn 3 "refund" .epoch 3, .worn 5 "order" .epoch 2, .worn 1 "order" (.numbered 5) 2] := by
    have hantisymm : ∀ a ∈ strained.stuck 0, ∀ b ∈ strained.stuck 0,
        a.worseThan b → b.worseThan a → a = b := by
      decide
    have hperm : (strained.stuck 0).Perm
        [.worn 3 "refund" .epoch 3, .worn 5 "order" .epoch 2, .worn 1 "order" (.numbered 5) 2] := by
      decide
    refine List.Perm.eq_of_pairwise (fun a b ha hb => ?_)
      (Message.pairwise_mergeSort_worseThan _) (by decide) ((List.mergeSort_perm _ _).trans hperm)
    exact hantisymm a (List.mem_mergeSort.mp ha) b (hperm.mem_iff.mpr hb)
  rw [Table.failing_eq, hsorted]
  rfl

/-- With room for two, the first message is left out, since it is scheduled later than the fifth.
Nobody is registered for refunds. -/
theorem status_lists_worst_strained :
    let world : Surroundings Unit := ⟨fun _ => (.epoch, ()), fun _ _ => ((.ok .unhandled, []), ())⟩
    let scene : Scene Unit := ⟨strained, (), []⟩
    let r : Registry PromptConsumer := ⟨[(⟨"order"⟩, Blueprint.mailer)]⟩
    (∀ call s, (world.answer (.store call) s).1 = (s.table.answer call).1) ∧
      (world.answer (.store .counts) scene).2.table = strained ∧
      ∃ status, ((Status.collect r 0 2).run world.answer scene).1 = .ok status ∧
        status.stuck = [⟨(Message.worn 3 "refund" .epoch 3).id, ⟨"refund"⟩, 3, some "down", false⟩,
          ⟨(Message.worn 5 "order" .epoch 2).id, ⟨"order"⟩, 2, some "down", true⟩] := by
  intro world scene r
  have hanswers : ∀ call s, (world.answer (.store call) s).1 = (s.table.answer call).1 :=
    fun _ _ => rfl
  obtain ⟨listed, hlisted, _, _, hcollect⟩ := status_lists_worst strained r 0 2
  obtain ⟨status, hrun, hshown⟩ := hcollect _ Scene.table world.answer scene hanswers rfl
  obtain rfl : strained.failing 0 2 = listed := Except.ok.inj (congrArg Prod.fst hlisted)
  rw [failing_strained] at hshown
  simp only [StuckMessage.presents_iff] at hshown
  rw [← List.forall₂_map_left_iff, List.forall₂_eq_eq_eq] at hshown
  exact ⟨hanswers, rfl, status, hrun, hshown.symm⟩

end Outbox
