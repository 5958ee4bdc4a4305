import Outbox.Proofs.Batches
import Mathlib.Data.Nat.Find

/-! # Cycles until nothing is left

The clock stands still, nobody interferes, and every consumer of a claimable message succeeds. Each
cycle takes the first messages off the queue of those that can be claimed and leaves the queue
behind them as it was. So the queue is attempted from its head to its end, and how it was cut into
batches does not show.
-/

namespace Outbox

namespace Table

theorem eq_of_rows {t t' : Table} (hrows : t.rows = t'.rows)
    (hentities : t.entities = t'.entities) : t = t' := by
  cases t
  cases t'
  cases hrows
  cases hentities
  rfl

/-- The ids give the places of the rows, and the lookup gives the rows. -/
theorem filterMap_row? (t : Table) : (t.rows.map Row.id).filterMap t.row? = t.rows := by
  rw [List.filterMap_map]
  refine (List.filterMap_congr fun r hmem => ?_).trans List.filterMap_some
  exact row?_eq_some.mpr ⟨hmem, rfl⟩

/-- Tables with the same ids in the same order are the same if they have the same row for each id.
-/
theorem eq_of_row? {t t' : Table} (hids : t.rows.map Row.id = t'.rows.map Row.id)
    (hrow : ∀ id, t.row? id = t'.row? id) (hentities : t.entities = t'.entities) : t = t' := by
  refine eq_of_rows ?_ hentities
  rw [← t.filterMap_row?, ← t'.filterMap_row?, hids, funext hrow]

theorem ids_mapRowsWhere (t : Table) (p : Row → Bool) (f : Row → Row)
    (keepsId : ∀ r, (f r).id = r.id) :
    (t.mapRowsWhere p f keepsId).rows.map Row.id = t.rows.map Row.id := by
  refine (List.map_map ..).trans (List.map_congr_left fun r _ => ?_)
  rw [Function.comp_apply]
  split
  · exact keepsId r
  · rfl

theorem ids_mark (t : Table) (claim : ClaimToken) (id : MessageId) (record : Message → Message)
    (keepsId : ∀ m, (record m).id = m.id) :
    (t.mark claim id record keepsId).2.rows.map Row.id = t.rows.map Row.id := by
  rw [mark_snd]
  split
  · exact t.ids_mapRowsWhere ..
  · rfl

/-- A call that is made under a claim leaves every row in its place. -/
theorem ids_answer (t : Table) {call : StoreCall} {claim : ClaimToken}
    (hclaim : call.claim? = some claim) :
    (t.answer call).2.rows.map Row.id = t.rows.map Row.id := by
  cases call with
  | fetch claim limit now lease =>
      exact t.ids_mapRowsWhere _ (·.claimFor claim (now.plusOrSelf lease)) fun _ => rfl
  | renew claim ids now lease =>
      exact t.ids_mapRowsWhere _ (·.extend (now.plusOrSelf lease)) fun _ => rfl
  | release claim ids => exact t.ids_mapRowsWhere _ Row.unclaim fun _ => rfl
  | markProcessed | markFailed => exact t.ids_mark ..
  | deleteProcessed | get | failing | counts => cases hclaim

theorem ids_keepUp (t : Table) (h : Heartbeat) (beats : List Instant) :
    (h.keepUp t beats).rows.map Row.id = t.rows.map Row.id := by
  induction beats generalizing t with
  | nil => rfl
  | cons now beats ih => exact (ih _).trans (t.ids_answer rfl)

/-- The table with these messages processed at a time. -/
def settle (t : Table) (batch : List Message) (now : Instant) : Table :=
  t.mapRowsWhere (fun r => batch.any fun m => m.id == r.id)
    (fun r => ⟨r.message.markProcessed now, none⟩) fun r => r.message.id_markProcessed now

/-- The table with all messages processed that can be claimed at a time. -/
def drained (t : Table) (now : Instant) : Table :=
  t.mapRowsWhere (·.isClaimable now)
    (fun r => ⟨{ r.message with processedAt := some now, error := none }, none⟩) fun _ => rfl

variable {t : Table} {now : Instant}

/-- Settling a batch records its messages as processed, and lets go of them. -/
theorem row?_settle (t : Table) (batch : List Message) (now : Instant) (id : MessageId) :
    (t.settle batch now).row? id = (t.row? id).map fun r =>
      if id ∈ batch.map Message.id then ⟨r.message.markProcessed now, none⟩ else r := by
  refine (row?_mapRowsWhere t _ (fun r => ⟨r.message.markProcessed now, none⟩)
    (fun r => r.message.id_markProcessed now) id).trans ?_
  cases hrow : t.row? id with
  | none => rfl
  | some r =>
      have hid := row?_id hrow
      simp [hid]

theorem ids_settle (t : Table) (batch : List Message) (now : Instant) :
    (t.settle batch now).rows.map Row.id = t.rows.map Row.id :=
  t.ids_mapRowsWhere _ (fun r => ⟨r.message.markProcessed now, none⟩) fun r =>
    r.message.id_markProcessed now

theorem ids_drained (t : Table) (now : Instant) :
    (t.drained now).rows.map Row.id = t.rows.map Row.id :=
  t.ids_mapRowsWhere _
    (fun r => ⟨{ r.message with processedAt := some now, error := none }, none⟩) fun _ => rfl

/-- Draining records all that is claimable as processed. -/
theorem row?_drained (t : Table) (now : Instant) (id : MessageId) :
    (t.drained now).row? id = (t.row? id).map fun r =>
      if r.isClaimable now then ⟨{ r.message with processedAt := some now, error := none }, none⟩
      else r :=
  row?_mapRowsWhere t (·.isClaimable now)
    (fun r => ⟨{ r.message with processedAt := some now, error := none }, none⟩) (fun _ => rfl) id

theorem settle_nil (t : Table) (now : Instant) : t.settle [] now = t :=
  eq_of_rows (List.map_id t.rows) rfl

theorem settle_settle (t : Table) (batch later : List Message) (now : Instant) :
    (t.settle batch now).settle later now = t.settle (batch ++ later) now := by
  refine eq_of_row? ?_ (fun id => ?_) rfl
  · rw [ids_settle, ids_settle, ids_settle]
  · simp only [row?_settle, Option.map_map, List.map_append, List.mem_append]
    refine congrArg (Option.map · (t.row? id)) (funext fun r => ?_)
    have htwice :=
      Message.markProcessed_of_isProcessed (r.message.isProcessed_markProcessed now) now
    by_cases hbatch : id ∈ batch.map Message.id
    · simp [hbatch, htwice]
    · simp [hbatch]

/-- There is only one order in which the queue can be. -/
theorem claimable_eq_of_perm {queue : List Message} (hperm : queue.Perm (t.claimable now))
    (hsorted : queue.Pairwise fun a b => a.scheduledBefore b) : t.claimable now = queue :=
  (Message.eq_of_perm_of_sorted hperm (t.claimable_nodup now) hsorted
    (t.claimable_pairwise now)).symm

/-- When the head of the queue is processed, its tail is the queue. -/
theorem claimable_settle (t : Table) (now : Instant) (n : Nat) :
    (t.settle ((t.claimable now).take n) now).claimable now = (t.claimable now).drop n := by
  let head := (t.claimable now).take n
  have hsplit : head ++ (t.claimable now).drop n = t.claimable now := List.take_append_drop n _
  have hnodup := t.claimable_nodup now
  rw [← hsplit, List.map_append, List.nodup_append] at hnodup
  have hdrop {m : Message} : m ∈ (t.claimable now).drop n ↔
      m ∈ t.claimable now ∧ m.id ∉ head.map Message.id := by
    constructor
    · intro hm
      refine ⟨List.mem_of_mem_drop hm, fun hid => ?_⟩
      exact hnodup.2.2 _ hid _ (List.mem_map_of_mem hm) rfl
    · rintro ⟨hm, hid⟩
      rw [← hsplit, List.mem_append] at hm
      exact hm.resolve_left fun hin => hid (List.mem_map_of_mem hin)
  have hmem (m : Message) : m ∈ (t.settle head now).claimable now ↔
      m ∈ (t.claimable now).drop n := by
    rw [hdrop, mem_claimable, mem_claimable, row?_settle]
    by_cases hid : m.id ∈ head.map Message.id
    · -- what is processed cannot be claimed
      simp only [hid, if_true, not_true_eq_false, and_false, iff_false]
      rintro ⟨r, hrow, rfl, hclaimable⟩
      obtain ⟨row, _, rfl⟩ := Option.map_eq_some_iff.mp hrow
      exact Row.not_isClaimable_of_processed (row.message.isProcessed_markProcessed now) now
        hclaimable
    · simp [hid]
  have hids := claimable_nodup (t.settle head now) now
  refine claimable_eq_of_perm ?_ ((t.claimable_pairwise now).sublist (List.drop_sublist n _))
  exact ((List.perm_ext_iff_of_nodup hids.of_map hnodup.2.1.of_map).mpr hmem).symm

/-- Once all that is claimable is settled the table is drained. -/
theorem settle_claimable (t : Table) (now : Instant) :
    t.settle (t.claimable now) now = t.drained now := by
  refine eq_of_row? ?_ (fun id => ?_) rfl
  · exact (t.ids_settle _ now).trans (t.ids_drained now).symm
  · rw [row?_settle, row?_drained]
    cases hrow : t.row? id with
    | none => rfl
    | some r =>
        obtain rfl := row?_id hrow
        have hmem : r.id ∈ (t.claimable now).map Message.id ↔ r.isClaimable now := by
          constructor
          · intro hid
            obtain ⟨m, hm, hid⟩ := List.mem_map.mp hid
            obtain ⟨row, hrow', _, hclaimable⟩ := mem_claimable.mp hm
            rw [hid, hrow] at hrow'
            exact Option.some.inj hrow' ▸ hclaimable
          · intro hclaimable
            exact List.mem_map_of_mem (mem_claimable.mpr ⟨r, hrow, rfl, hclaimable⟩)
        simp only [Option.map_some, hmem]
        split
        next hclaimable =>
          rw [Message.markProcessed_of_open (Row.isClaimable_iff.mp hclaimable).1]
        next => rfl

end Table

namespace Surroundings

open Processor Phase

variable {σ : Type} (world : Surroundings σ) {p : Processor} {claim : ClaimToken}

/-- A cycle leaves every row in its place. -/
theorem ids_run (φ : Phase) (s : Scene σ) :
    ((φ.routine p claim).run world.answer s).2.table.rows.map Row.id =
      s.table.rows.map Row.id := by
  generalize hroutine : φ.routine p claim = routine
  induction routine generalizing φ s with
  | done result => rfl
  | ask q goOn ih =>
      obtain ⟨next, hasks, hgoOn⟩ := asks_of_routine_eq hroutine
      refine (ih _ _ (world.answer q s).2 (hgoOn (world.answer q s).1).symm).trans ?_
      cases q with
      | store call => exact s.table.ids_answer hasks.claim?_eq
      | dispatch message heartbeat => exact s.table.ids_keepUp heartbeat _
      | now | stopRequested => rfl

/-- What is outside after the deliveries of a batch. -/
def outsideAfter (batch : List Message) (outside : σ) : σ :=
  batch.foldl (fun outside m => (world.delivery m outside).2) outside

theorem outside_run_working {left : List Message} {s : Scene σ}
    (hnodup : (left.map Message.id).Nodup) (hholds : ∀ m ∈ left, s.table.Holds claim m)
    (report : BatchReport) :
    (((working left (left.map Message.id) report).routine p claim).run world.answer s).2.outside =
      world.outsideAfter left s.outside := by
  induction left generalizing s report with
  | nil => rfl
  | cons message rest ih =>
      obtain ⟨table, hrun, _, hrest, _⟩ := run_working_cons world hnodup hholds report
      rw [hrun]
      exact ih (s := ⟨table, _, _⟩) (List.nodup_cons.mp hnodup).2 hrest _

/-- What a cycle does to its surroundings is what it takes to attend to its batch. -/
theorem outside_cycle (p : Processor) (claim : ClaimToken) (s : Scene σ) :
    (world.cycle p claim s).2.outside =
      world.outsideAfter (s.table.fetched p.batchSize (world.read s.outside).1)
        (world.read s.outside).2 := by
  let now := (world.read s.outside).1
  let batch := s.table.fetched p.batchSize now
  let fetched : Scene σ :=
    ⟨(s.table.fetch claim p.batchSize now p.lease).2, (world.read s.outside).2, s.dispatched⟩
  have hholds : ∀ m ∈ batch, fetched.table.Holds claim m := fun m hm => Table.holds_fetch hm _
  have houtside := world.outside_run_working (p := p) (s.table.fetched_nodup _ _) hholds
    { fetched := batch.length }
  exact houtside

/-- The cycle of this number is the first to fetch nothing, and none before it fails. -/
def RunsDryAt (p : Processor) (claims : Nat → ClaimToken) (s : Scene σ) (k : Nat) : Prop :=
  (∃ report, (world.cycle p (claims k) (world.afterCycles p claims s k)).1 = .ok report ∧
      report.fetched = 0) ∧
    ∀ j < k, ∃ report,
      (world.cycle p (claims j) (world.afterCycles p claims s j)).1 = .ok report ∧
        report.fetched ≠ 0

variable {world}

/-- Cycles run dry only once. -/
theorem RunsDryAt.unique {claims : Nat → ClaimToken} {s : Scene σ} {j k : Nat}
    (hj : world.RunsDryAt p claims s j) (hk : world.RunsDryAt p claims s k) : j = k := by
  have hle {j k : Nat} (hj : world.RunsDryAt p claims s j) (hk : world.RunsDryAt p claims s k) :
      j ≤ k := by
    by_contra hlt
    obtain ⟨report, hreport, hdry⟩ := hk.1
    obtain ⟨report', hreport', hsome⟩ := hj.2 k (by omega)
    rw [hreport] at hreport'
    cases hreport'
    exact hsome hdry
  exact Nat.le_antisymm (hle hj hk) (hle hk hj)

end Surroundings

namespace Registry

variable {σ : Type} (registry : Registry (StatefulConsumer σ))

/-- No consumer of the message's tag can fail on it, whatever was called before. -/
def Serves (m : Message) : Prop :=
  ∀ k ∈ registry.consumersFor m.tag, ∀ s, (k.call m.tag m.content s).1 = .succeeded

variable {registry}

theorem Serves.isClean {m : Message} (hserves : registry.Serves m) (s : σ) :
    (registry.attend m s).1.isClean := by
  have hcalls (ks : List (StatefulConsumer σ))
      (hks : ∀ k ∈ ks, ∀ s, (k.call m.tag m.content s).1 = .succeeded) (s : σ) :
      (((ks.mapM fun k => (do return (k.name, ← k.call m.tag m.content) :
        StateM σ (String × CallOutcome))) s).1.all fun call => call.2.isSuccess) = true := by
    induction ks generalizing s with
    | nil => rfl
    | cons k ks ih =>
        rw [List.mapM_cons]
        refine Bool.and_eq_true_iff.mpr ⟨?_, ?_⟩
        · exact congrArg CallOutcome.isSuccess (hks k List.mem_cons_self s)
        · exact ih (fun k hk => hks k (List.mem_cons_of_mem _ hk)) (k.call m.tag m.content s).2
  exact hcalls _ hserves s

/-- A registry that serves every message of a batch attends to each without a complaint. -/
theorem isClean_of_mem_attendAll {batch : List Message}
    (hserves : ∀ m ∈ batch, registry.Serves m) {s : σ} {a : Attendance}
    (hmem : a ∈ registry.attendAll batch s) : a.isClean := by
  induction batch generalizing s with
  | nil => cases hmem
  | cons m rest ih =>
      rcases List.mem_cons.mp hmem with rfl | hmem
      · exact (hserves m List.mem_cons_self).isClean s
      · exact ih (fun m hm => hserves m (List.mem_cons_of_mem _ hm)) hmem

section Served

variable {now : Instant} {t : Table} {p : Processor} (beats : Message → σ → Nat)
  (claims : Nat → ClaimToken) (s : σ)

/-- A cycle takes the head off the queue and has all of it processed. -/
theorem cycle_takes_head (claim : ClaimToken) (dispatched : List Message)
    (hserves : ∀ m ∈ t.claimable now, registry.Serves m) :
    let world := registry.surroundings now beats
    let batch := (t.claimable now).take p.batchSize
    (∃ report, (world.cycle p claim ⟨t, s, dispatched⟩).1 = .ok report ∧
        report.fetched = batch.length) ∧
      (world.cycle p claim ⟨t, s, dispatched⟩).2 =
        ⟨t.settle batch now, world.outsideAfter batch s, dispatched ++ batch⟩ := by
  intro world batch
  obtain ⟨hresult, hdispatched, hrows, hothers⟩ := world.cycle_effect p claim ⟨t, s, dispatched⟩
  have hdeliveries : world.deliveries batch s =
      (registry.attendAll batch s).map fun a => a.delivery now :=
    registry.deliveries_surroundings now beats batch s
  have hmessages := registry.map_message_attendAll batch s
  constructor
  · refine ⟨_, hresult, ?_⟩
    rw [← List.foldl_map, BatchReport.foldl_add]
    rfl
  · have htable : (world.cycle p claim ⟨t, s, dispatched⟩).2.table = t.settle batch now := by
      refine Table.eq_of_row? ?_ (fun id => ?_) (world.entities_run _ _)
      · exact (world.ids_run .starting _).trans (t.ids_settle batch now).symm
      · rw [Table.row?_settle]
        by_cases hid : id ∈ batch.map Message.id
        · obtain ⟨m, hm, rfl⟩ := List.mem_map.mp hid
          obtain ⟨a, ha, rfl⟩ := List.mem_map.mp (hmessages ▸ hm)
          have hqueued := List.mem_of_mem_take hm
          obtain ⟨r, hrow, hmessage, hclaimable⟩ := Table.mem_claimable.mp hqueued
          have hopen : a.message.isProcessed = false :=
            hmessage ▸ (Row.isClaimable_iff.mp hclaimable).1
          have hclean : a.isClean :=
            isClean_of_mem_attendAll (fun m hm => hserves m (List.mem_of_mem_take hm)) ha
          have hdelivery : a.delivery now ∈ world.deliveries batch s :=
            hdeliveries ▸ List.mem_map_of_mem ha
          refine (hrows (a.delivery now) hdelivery).trans ?_
          rw [Attendance.recorded_of_isClean hclean hopen, hrow, Option.map_some, if_pos hid,
            hmessage, Message.markProcessed_of_open hopen]
        · refine (hothers id hid).trans ?_
          cases t.row? id with
          | none => rfl
          | some r => rw [Option.map_some, if_neg hid]
    have houtside : (world.cycle p claim ⟨t, s, dispatched⟩).2.outside =
        world.outsideAfter batch s := world.outside_cycle p claim _
    generalize world.cycle p claim ⟨t, s, dispatched⟩ = done at *
    obtain ⟨_, ⟨table, outside, handed⟩⟩ := done
    cases htable
    cases houtside
    cases hdispatched
    rfl

/-- After some cycles as many messages are off the queue as their batches have room for. -/
theorem afterCycles_eq (hserves : ∀ m ∈ t.claimable now, registry.Serves m) (k : Nat) :
    let world := registry.surroundings now beats
    let head := (t.claimable now).take (k * p.batchSize)
    world.afterCycles p claims ⟨t, s, []⟩ k =
      ⟨t.settle head now, world.outsideAfter head s, head⟩ := by
  induction k with
  | zero =>
      intro world head
      have hnone : head = [] := by simp [head]
      rw [hnone, Table.settle_nil]
      rfl
  | succ k ih =>
      intro world head
      let done := (t.claimable now).take (k * p.batchSize)
      have hqueue := t.claimable_settle now (k * p.batchSize)
      have hrest : ∀ m ∈ (t.settle done now).claimable now, registry.Serves m := fun m hm =>
        hserves m (List.mem_of_mem_drop (hqueue ▸ hm))
      have hhead : head = done ++ ((t.settle done now).claimable now).take p.batchSize := by
        rw [hqueue, ← List.take_add, ← Nat.succ_mul]
      rw [Surroundings.afterCycles, ih]
      refine (cycle_takes_head beats _ (claims k) done hrest).2.trans ?_
      rw [Table.settle_settle, ← hhead, hhead]
      simp only [Surroundings.outsideAfter, List.foldl_append]
      rfl

/-- A cycle fetches the messages of the queue that the cycles before it have left, as far as its
batch has room for them. -/
theorem fetched_afterCycles (hserves : ∀ m ∈ t.claimable now, registry.Serves m) (k : Nat) :
    ∃ report, ((registry.surroundings now beats).cycle p (claims k)
        ((registry.surroundings now beats).afterCycles p claims ⟨t, s, []⟩ k)).1 = .ok report ∧
      report.fetched = min p.batchSize ((t.claimable now).length - k * p.batchSize) := by
  let head := (t.claimable now).take (k * p.batchSize)
  have hqueue := t.claimable_settle now (k * p.batchSize)
  have hrest : ∀ m ∈ (t.settle head now).claimable now, registry.Serves m := fun m hm =>
    hserves m (List.mem_of_mem_drop (hqueue ▸ hm))
  rw [afterCycles_eq beats claims s hserves]
  obtain ⟨⟨report, hreport, hfetched⟩, _⟩ := cycle_takes_head (p := p) beats
    ((registry.surroundings now beats).outsideAfter head s) (claims k) head hrest
  refine ⟨report, hreport, ?_⟩
  rw [hfetched, hqueue, List.length_take, List.length_drop]

/-- Cycles run dry as soon as they have had room for all that is claimable. -/
theorem exists_runsDryAt (hserves : ∀ m ∈ t.claimable now, registry.Serves m)
    (hroom : 1 ≤ p.batchSize) :
    ∃ k, (registry.surroundings now beats).RunsDryAt p claims ⟨t, s, []⟩ k ∧
      (t.claimable now).length ≤ k * p.batchSize := by
  have hends : ∃ k, (t.claimable now).length ≤ k * p.batchSize :=
    ⟨(t.claimable now).length, Nat.le_mul_of_pos_right _ hroom⟩
  refine ⟨Nat.find hends, ⟨?_, fun j hj => ?_⟩, Nat.find_spec hends⟩
  · obtain ⟨report, hreport, hfetched⟩ :=
      fetched_afterCycles beats claims s hserves (Nat.find hends)
    refine ⟨report, hreport, ?_⟩
    have hdone := Nat.find_spec hends
    omega
  · obtain ⟨report, hreport, hfetched⟩ := fetched_afterCycles beats claims s hserves j
    refine ⟨report, hreport, ?_⟩
    have hleft := Nat.find_min hends hj
    omega

end Served

/-- When every consumer of a claimable message succeeds, the clock stands still and nobody
interferes, then for every batch size the cycles come to one that fetches nothing. By then they have
attempted the claimable messages and no others, each once, in the order of schedule, creation and
id. Exactly the rows of these are processed, and their claims and errors are gone; all other rows
and the entities are as they were. So neither the messages attempted and their order nor what is
left behind tell one batch size from another. -/
theorem cycles_drain_in_order (now : Instant) (beats : Message → σ → Nat) (t : Table) (s : σ)
    (hserves : ∀ m ∈ t.claimable now, registry.Serves m) :
    let world := registry.surroundings now beats
    let queue := t.claimable now
    (queue.Perm ((t.rows.filter (·.isClaimable now)).map Row.message) ∧
      (queue.map Message.id).Nodup ∧ queue.Pairwise fun a b => a.scheduledBefore b) ∧
    (∀ (p : Processor) (claims : Nat → ClaimToken), 1 ≤ p.batchSize →
      ∃ k, world.RunsDryAt p claims ⟨t, s, []⟩ k ∧
        (world.afterCycles p claims ⟨t, s, []⟩ (k + 1)).dispatched = queue ∧
        (world.afterCycles p claims ⟨t, s, []⟩ (k + 1)).table = t.drained now) ∧
    ∀ (p p' : Processor) (claims claims' : Nat → ClaimToken) (k k' : Nat),
      1 ≤ p.batchSize → 1 ≤ p'.batchSize →
      world.RunsDryAt p claims ⟨t, s, []⟩ k → world.RunsDryAt p' claims' ⟨t, s, []⟩ k' →
      world.afterCycles p claims ⟨t, s, []⟩ (k + 1) =
        world.afterCycles p' claims' ⟨t, s, []⟩ (k' + 1) := by
  intro world queue
  have hdry (p : Processor) (claims : Nat → ClaimToken) (hroom : 1 ≤ p.batchSize) :
      ∃ k, world.RunsDryAt p claims ⟨t, s, []⟩ k ∧
        world.afterCycles p claims ⟨t, s, []⟩ (k + 1) =
          ⟨t.drained now, world.outsideAfter queue s, queue⟩ := by
    obtain ⟨k, hdry, hall⟩ := exists_runsDryAt beats claims s hserves hroom
    refine ⟨k, hdry, ?_⟩
    rw [afterCycles_eq beats claims s hserves, List.take_of_length_le, t.settle_claimable]
    exact Nat.le_trans hall (Nat.mul_le_mul_right _ k.le_succ)
  refine ⟨⟨List.mergeSort_perm _ _, t.claimable_nodup now, t.claimable_pairwise now⟩, ?_, ?_⟩
  · intro p claims hroom
    obtain ⟨k, hdry, hscene⟩ := hdry p claims hroom
    exact ⟨k, hdry, congrArg Scene.dispatched hscene, congrArg Scene.table hscene⟩
  · intro p p' claims claims' k k' hroom hroom' hk hk'
    obtain ⟨l, hl, hscene⟩ := hdry p claims hroom
    obtain ⟨l', hl', hscene'⟩ := hdry p' claims' hroom'
    rw [hk.unique hl, hk'.unique hl', hscene, hscene']

/-- A consumer that counts its calls. Notes are taken by nobody. -/
def counting : Registry (StatefulConsumer Nat) :=
  ⟨[(⟨"order"⟩, ⟨"audit", .raw, fun _ _ calls => (.succeeded, calls + 1)⟩)]⟩

/-- The rows are not in the order of delivery, and the last two of them are not in the queue. -/
def backlog : Table where
  rows := [⟨.numbered 1 "order" (.numbered 2), none⟩,
    ⟨.numbered 3 "note" .epoch, some ⟨.numbered 9, .numbered 4⟩⟩,
    ⟨.numbered 2 "order" .epoch, none⟩,
    ⟨.numbered 4 "order" .epoch, some ⟨.numbered 9, .numbered 8⟩⟩,
    ⟨.numbered 5 "order" (.numbered 7), none⟩]
  entities := []
  distinctIds := by decide

theorem claimable_backlog : backlog.claimable (.numbered 5) =
    [.numbered 2 "order" .epoch, .numbered 3 "note" .epoch, .numbered 1 "order" (.numbered 2)] := by
  refine Table.claimable_eq_of_perm (List.Perm.trans ?_ (List.mergeSort_perm _ _).symm) ?_
  · decide
  · decide

theorem counting_serves (m : Message) : counting.Serves m := by
  intro k hk s
  obtain ⟨entry, hentry, rfl⟩ := List.mem_map.mp hk
  obtain rfl := List.mem_singleton.mp (List.mem_of_mem_filter hentry)
  rfl

/-- One message at a time, or two. -/
theorem backlog_drains_in_order :
    let world := counting.surroundings (.numbered 5) fun _ calls => calls
    let p (size : Nat) : Processor := ⟨.immediate, size, .ofSeconds 5, .ofSeconds 30⟩
    let claims (_ : Nat) : ClaimToken := .numbered 1
    let done (size k : Nat) := world.afterCycles (p size) claims ⟨backlog, 0, []⟩ (k + 1)
    ∃ k k', world.RunsDryAt (p 1) claims ⟨backlog, 0, []⟩ k ∧
      world.RunsDryAt (p 2) claims ⟨backlog, 0, []⟩ k' ∧ done 1 k = done 2 k' ∧
      (done 1 k).dispatched = [.numbered 2 "order" .epoch, .numbered 3 "note" .epoch,
        .numbered 1 "order" (.numbered 2)] ∧
      (done 1 k).table.rows.map (fun r => (r.message.processedAt, r.lease)) =
        [(some (.numbered 5), none), (some (.numbered 5), none), (some (.numbered 5), none),
          (none, some ⟨.numbered 9, .numbered 8⟩), (none, none)] := by
  intro world p claims done
  obtain ⟨_, hdrains, hsame⟩ := counting.cycles_drain_in_order (.numbered 5)
    (fun _ calls => calls) backlog 0 fun m _ => counting_serves m
  obtain ⟨k, hk, hdispatched, htable⟩ := hdrains (p 1) claims (by decide)
  obtain ⟨k', hk', _⟩ := hdrains (p 2) claims (by decide)
  refine ⟨k, k', hk, hk', ?_, hdispatched.trans claimable_backlog, ?_⟩
  · exact hsame (p 1) (p 2) claims claims k k' (by decide) (by decide) hk hk'
  · rw [htable]
    decide

end Registry

end Outbox
