import Outbox.Proofs.Holders
import Outbox.Proofs.Scripts

/-! # What a lease protects

From the fetch that returned a message until the end of its lease the row stays with the claim of
that fetch. Other claims are turned away, sweeps and commits pass it by, and the claim itself may
move the end by renewals. Only its own mark or release lets the row go earlier.
-/

namespace Outbox

/-- The call does not end a lease that the claim has on the message until this instant. -/
def StoreCall.Spares (claim : ClaimToken) (id : MessageId) (ends : Instant) : StoreCall → Prop
  | fetch _ _ now _ => now < ends
  | markProcessed c marked _ | markFailed c marked _ _ => ¬ (marked = id ∧ c = claim)
  | release c ids => ¬ (id ∈ ids ∧ c = claim)
  | _ => True

/-- The end to which the call moves a lease that the claim has on the message. -/
def StoreCall.extension? (claim : ClaimToken) (id : MessageId) : StoreCall → Option Instant
  | renew c ids now lease =>
      if id ∈ ids ∧ c = claim then some (now.plusOrSelf lease) else none
  | _ => none

namespace Table

/-- The claim has the row of an unprocessed message until this instant. -/
def Leased (t : Table) (claim : ClaimToken) (m : Message) (ends : Instant) : Prop :=
  m.isProcessed = false ∧ t.row? m.id = some ⟨m, some ⟨claim, ends⟩⟩

variable {t : Table} {claim : ClaimToken} {m : Message} {ends : Instant}

namespace Leased

theorem isHeldBy_iff (hleased : t.Leased claim m ends) (c : ClaimToken) :
    Row.isHeldBy ⟨m, some ⟨claim, ends⟩⟩ c ↔ c = claim := by
  rw [Row.isHeldBy_iff]
  constructor
  · rintro ⟨_, l, hl, rfl⟩
    cases hl
    rfl
  · rintro rfl
    exact ⟨hleased.1, _, rfl, rfl⟩

/-- No fetch returns what is leased before the lease ends. -/
theorem not_mem_fetched (hleased : t.Leased claim m ends) {now : Instant} (hearly : now < ends)
    (limit : Nat) : m.id ∉ (t.fetched limit now).map Message.id := by
  intro hmem
  obtain ⟨b, hb, hid⟩ := List.mem_map.mp hmem
  obtain ⟨row, hrow, _, hclaimable⟩ := exists_row_of_mem_fetched hb
  rw [hid, hleased.2] at hrow
  obtain rfl := Option.some.inj hrow
  have hended : ends ≤ now := (Row.isClaimable_iff.mp hclaimable).2.2 _ rfl
  exact Instant.not_le.mpr hearly hended

/-- A renewal returns what is leased to its own claim only. -/
theorem mem_renewed_iff (hleased : t.Leased claim m ends) (c : ClaimToken) (ids : List MessageId)
    (now : Instant) (lease : Duration) :
    m.id ∈ (t.renew c ids now lease).1 ↔ m.id ∈ ids ∧ c = claim := by
  rw [mem_renewed, hleased.2]
  simp [hleased.isHeldBy_iff]

/-- A change that only the holder can make leaves the row as it is for everybody else. -/
theorem row_of_free {t' : Table} {c : ClaimToken} {P : Prop} [Decidable P] {f : Row → Row}
    (hleased : t.Leased claim m ends) (hfree : ¬ (P ∧ c = claim))
    (hrow : t'.row? m.id = (t.row? m.id).map fun row =>
      if P ∧ row.isHeldBy c then f row else row) : t'.Leased claim m ends := by
  refine ⟨hleased.1, ?_⟩
  rw [hrow, hleased.2, Option.map_some, if_neg]
  rw [hleased.isHeldBy_iff]
  exact hfree

theorem deleteProcessed (hleased : t.Leased claim m ends) (cutoff : Instant) :
    (t.deleteProcessed cutoff).2.Leased claim m ends := by
  have hopen : m.processedAt = none := by simpa [Message.isProcessed] using hleased.1
  refine ⟨hleased.1, ?_⟩
  rw [row?_deleteProcessed, hleased.2, Option.filter_some]
  simp [hopen]

/-- A call that spares the lease leaves the row with its holder, and moves the end only if it is a
renewal by the holder. -/
theorem answer (hleased : t.Leased claim m ends) {call : StoreCall}
    (hspares : call.Spares claim m.id ends) :
    (t.answer call).2.Leased claim m ((call.extension? claim m.id).getD ends) := by
  cases call with
  | fetch c limit now lease =>
      refine ⟨hleased.1, ?_⟩
      change (t.fetch c limit now lease).2.row? m.id = _
      rw [row?_fetch, hleased.2, Option.map_some, if_neg (hleased.not_mem_fetched hspares limit)]
      rfl
  | renew c ids now lease =>
      by_cases hown : m.id ∈ ids ∧ c = claim
      · refine ⟨hleased.1, ?_⟩
        have hheld : m.id ∈ ids ∧ Row.isHeldBy ⟨m, some ⟨claim, ends⟩⟩ c :=
          ⟨hown.1, (hleased.isHeldBy_iff c).mpr hown.2⟩
        change (t.renew c ids now lease).2.row? m.id = _
        rw [row?_renew, hleased.2, Option.map_some, if_pos hheld]
        simp [StoreCall.extension?, hown, Row.extend]
      · have hsame : (StoreCall.renew c ids now lease).extension? claim m.id = none := if_neg hown
        rw [hsame, Option.getD_none]
        exact hleased.row_of_free hown (row?_renew t c ids now lease m.id)
  | markProcessed c marked time =>
      exact hleased.row_of_free (fun h => hspares ⟨h.1.symm, h.2⟩) (row?_mark t c marked _ _ m.id)
  | markFailed c marked error nextRun =>
      exact hleased.row_of_free (fun h => hspares ⟨h.1.symm, h.2⟩) (row?_mark t c marked _ _ m.id)
  | release c ids => exact hleased.row_of_free hspares (row?_release t c ids m.id)
  | deleteProcessed cutoff => exact hleased.deleteProcessed cutoff
  | get | failing | counts => exact hleased

theorem commit {u : UnitOfWork} {t' : Table} (hleased : t.Leased claim m ends)
    (hcommit : u.commit t = .ok t') : t'.Leased claim m ends :=
  ⟨hleased.1, row?_commit_of_some hcommit hleased.2⟩

end Leased

/-- What the store does for the holder of a lease on the row, as long as the end has not come. -/
structure Protects (t : Table) (claim : ClaimToken) (row : Row) (ends : Instant) : Prop where
  present : t.row? row.id = some row
  held : row.isHeldBy claim
  lockedUntil : row.lockedUntil = some ends
  unfetched : ∀ c limit now lease, now < ends →
    row.id ∉ (t.fetch c limit now lease).1.map Message.id
  renewed : ∀ ids now lease, row.id ∈ ids → row.id ∈ (t.renew claim ids now lease).1
  notRenewed : ∀ c ids now lease, c ≠ claim → row.id ∉ (t.renew c ids now lease).1
  notProcessed : ∀ c time, c ≠ claim →
    t.answer (.markProcessed c row.id time) = (.error (.claimLost row.id), t)
  notFailed : ∀ c error nextRun, c ≠ claim →
    t.answer (.markFailed c row.id error nextRun) = (.error (.claimLost row.id), t)
  notReleased : ∀ c ids, c ≠ claim → (t.release c ids).row? row.id = some row
  notDeleted : ∀ cutoff, (t.deleteProcessed cutoff).2.row? row.id = some row
  notReplaced : ∀ (u : UnitOfWork) (t' : Table), u.commit t = .ok t' → t'.row? row.id = some row

theorem Leased.protects (hleased : t.Leased claim m ends) :
    t.Protects claim ⟨m, some ⟨claim, ends⟩⟩ ends := by
  have hlost {c : ClaimToken} (hother : c ≠ claim) (record : Message → Message)
      (keepsId : ∀ m, (record m).id = m.id) :
      t.mark c m.id record keepsId = (.error (.claimLost m.id), t) := by
    have hnot : ¬ Row.isHeldBy ⟨m, some ⟨claim, ends⟩⟩ c := by
      rw [hleased.isHeldBy_iff]
      exact hother
    rw [mark_of_not_held hleased.2 hnot, Row.rebuff, if_neg (by simp [hleased.1])]
    rfl
  exact {
    present := hleased.2
    held := (hleased.isHeldBy_iff claim).mpr rfl
    lockedUntil := rfl
    unfetched := fun _ limit _ _ hearly => hleased.not_mem_fetched hearly limit
    renewed := fun ids now lease hmem =>
      (hleased.mem_renewed_iff claim ids now lease).mpr ⟨hmem, rfl⟩
    notRenewed := fun c ids now lease hother hmem =>
      hother ((hleased.mem_renewed_iff c ids now lease).mp hmem).2
    notProcessed := fun c time hother => hlost hother _ fun m => m.id_markProcessed time
    notFailed := fun c error nextRun hother =>
      hlost hother _ fun m => m.id_markFailed error nextRun
    notReleased := fun c ids hother =>
      (hleased.row_of_free (fun h => hother h.2) (row?_release t c ids m.id)).2
    notDeleted := fun cutoff => (hleased.deleteProcessed cutoff).2
    notReplaced := fun _ _ hcommit => (hleased.commit hcommit).2 }

end Table

namespace Run

variable {r : Run} {f n : Nat} {claim : ClaimToken} {id : MessageId} {ends : Instant}

/-- In step `n` a fetch or a renewal under the claim returns the message, with a lease until this
instant. -/
def Grants (r : Run) (n : Nat) (claim : ClaimToken) (id : MessageId) (ends : Instant) : Prop :=
  (∃ limit now lease, r.Calls n (.fetch claim limit now lease) ∧
    id ∈ ((r.table n).fetch claim limit now lease).1.map Message.id ∧
    ends = now.plusOrSelf lease) ∨
  ∃ ids now lease, r.Calls n (.renew claim ids now lease) ∧
    id ∈ ((r.table n).renew claim ids now lease).1 ∧ ends = now.plusOrSelf lease

/-- The latest fetch or renewal under the claim that returned the message gave a lease until this
instant. -/
def LeasedUntil (r : Run) (n : Nat) (claim : ClaimToken) (id : MessageId) (ends : Instant) : Prop :=
  ∃ g, g < n ∧ r.Grants g claim id ends ∧ ∀ k, g < k → k < n → ∀ e, ¬ r.Grants k claim id e

/-- Since step `f` the claim has neither given the message back nor made a mark on it, and each
fetch has been made before the end of the lease that the claim had then. -/
structure Undisturbed (r : Run) (f n : Nat) (claim : ClaimToken) (id : MessageId) : Prop where
  kept : ∀ k, f < k → k < n → ¬ r.Releases k claim id
  unmarked : ∀ k, f < k → k < n → ¬ r.Marks k claim id
  early : ∀ k, f < k → k < n → ∀ c limit now lease, r.Calls k (.fetch c limit now lease) →
    ∀ ends, r.LeasedUntil k claim id ends → now < ends

theorem Grants.leasedUntil (hgrants : r.Grants n claim id ends) :
    r.LeasedUntil (n + 1) claim id ends :=
  ⟨n, Nat.lt_succ_self n, hgrants, fun k hnk hkn => by omega⟩

/-- The end of a lease stays as it is in a step that does not grant another. -/
theorem LeasedUntil.succ (huntil : r.LeasedUntil n claim id ends)
    (hnone : ∀ e, ¬ r.Grants n claim id e) : r.LeasedUntil (n + 1) claim id ends := by
  obtain ⟨g, hgn, hgrants, hlatest⟩ := huntil
  refine ⟨g, Nat.lt_succ_of_lt hgn, hgrants, fun k hgk hkn => ?_⟩
  rcases Nat.lt_succ_iff_lt_or_eq.mp hkn with hkn | rfl
  · exact hlatest k hgk hkn
  · exact hnone

/-- A call that spares the lease grants a new end just when it moves the lease. -/
theorem grants_iff_extension? {m : Message} {call : StoreCall} (hcalls : r.Calls n call)
    (hleased : (r.table n).Leased claim m ends) (hspares : call.Spares claim m.id ends)
    (e : Instant) : r.Grants n claim m.id e ↔ call.extension? claim m.id = some e := by
  constructor
  · rintro (⟨limit, now, lease, hfetch, hmem, rfl⟩ | ⟨ids, now, lease, hrenew, hmem, rfl⟩)
    · obtain rfl := Fleet.Calls.unique hcalls hfetch
      exact (hleased.not_mem_fetched hspares limit hmem).elim
    · obtain rfl := Fleet.Calls.unique hcalls hrenew
      exact if_pos ((hleased.mem_renewed_iff claim ids now lease).mp hmem)
  · intro hmoves
    cases call with
    | renew c ids now lease =>
        simp only [StoreCall.extension?] at hmoves
        split at hmoves
        next hown =>
          cases hmoves
          obtain rfl := hown.2
          exact .inr ⟨ids, now, lease, hcalls,
            (hleased.mem_renewed_iff c ids now lease).mpr hown, rfl⟩
        next => cases hmoves
    | _ => cases hmoves

/-- One step, whoever makes it. -/
theorem leased_step {m : Message} (hundisturbed : r.Undisturbed f (n + 1) claim m.id) (hfn : f < n)
    (hleased : (r.table n).Leased claim m ends) (huntil : r.LeasedUntil n claim m.id ends) :
    ∃ ends', (r.table (n + 1)).Leased claim m ends' ∧ r.LeasedUntil (n + 1) claim m.id ends' := by
  have hlt := Nat.lt_succ_self n
  by_cases hcall : ∃ call, r.Calls n call
  · obtain ⟨call, hcalls⟩ := hcall
    have hspares : call.Spares claim m.id ends := by
      cases call with
      | fetch c limit now lease =>
          exact hundisturbed.early n hfn hlt c limit now lease hcalls ends huntil
      | markProcessed c marked time =>
          rintro ⟨rfl, rfl⟩
          exact hundisturbed.unmarked n hfn hlt (.inl ⟨time, hcalls⟩)
      | markFailed c marked error nextRun =>
          rintro ⟨rfl, rfl⟩
          exact hundisturbed.unmarked n hfn hlt (.inr ⟨error, nextRun, hcalls⟩)
      | release c ids =>
          rintro ⟨hmem, rfl⟩
          exact hundisturbed.kept n hfn hlt ⟨ids, hcalls, hmem⟩
      | renew | deleteProcessed | get | failing | counts => trivial
    have hgrants := grants_iff_extension? hcalls hleased hspares
    refine ⟨_, Calls.table hcalls ▸ hleased.answer hspares, ?_⟩
    cases hmoves : call.extension? claim m.id with
    | none =>
        refine huntil.succ fun e hgrant => ?_
        cases hmoves.symm.trans ((hgrants e).mp hgrant)
    | some e => exact ((hgrants e).mpr hmoves).leasedUntil
  · have hquiet : r.LeasedUntil (n + 1) claim m.id ends := by
      refine huntil.succ fun e hgrant => hcall ?_
      rcases hgrant with ⟨_, _, _, hfetch, _⟩ | ⟨_, _, _, hrenew, _⟩
      · exact ⟨_, hfetch⟩
      · exact ⟨_, hrenew⟩
    refine ⟨ends, ?_, hquiet⟩
    rcases r.table_step n with hsame | ⟨call, hcalls, _⟩ | ⟨u, _, hcommit⟩
    · exact hsame ▸ hleased
    · exact (hcall ⟨call, hcalls⟩).elim
    · exact hleased.commit hcommit

/-- A fetch grants a lease on what it returns. -/
theorem leased_of_returns (hreturns : r.Returns n claim id) : ∃ m ends, m.id = id ∧
    (r.table (n + 1)).Leased claim m ends ∧ r.LeasedUntil (n + 1) claim id ends := by
  obtain ⟨now, limit, lease, hcalls, hmem⟩ := hreturns
  obtain ⟨m, hm, rfl⟩ := List.mem_map.mp hmem
  obtain ⟨row, hrow, rfl, hclaimable⟩ := Table.exists_row_of_mem_fetched hm
  have hbatch : row.message.id ∈ ((r.table n).fetched limit now).map Message.id := hmem
  refine ⟨row.message, now.plusOrSelf lease, rfl, ⟨(Row.isClaimable_iff.mp hclaimable).1, ?_⟩, ?_⟩
  · rw [Calls.table hcalls]
    refine (Table.row?_fetch (r.table n) claim limit now lease row.message.id).trans ?_
    rw [hrow, Option.map_some, if_pos hbatch]
    rfl
  · exact Grants.leasedUntil (.inl ⟨limit, now, lease, hcalls, hmem, rfl⟩)

/-- A claim whose fetch has returned a message keeps its row until it makes a mark on it or gives it
back, as long as every fetch comes before the end of the lease that the claim's latest fetch or
renewal gave. Meanwhile no fetch returns the message. Other claims cannot renew it, have their marks
refused as lost, and change nothing by a release; nor do sweeps and commits change anything. The
claim itself can renew whenever it asks. -/
theorem lease_protects (hreturns : r.Returns f claim id) (hlt : f < n)
    (hundisturbed : r.Undisturbed f n claim id) :
    ∃ row ends, row.id = id ∧ r.LeasedUntil n claim id ends ∧
      (r.table n).Protects claim row ends := by
  obtain ⟨m, ends, rfl, hfirst⟩ := leased_of_returns hreturns
  suffices hleased : ∃ ends, (r.table n).Leased claim m ends ∧ r.LeasedUntil n claim m.id ends by
    obtain ⟨ends, hleased, huntil⟩ := hleased
    exact ⟨_, ends, rfl, huntil, hleased.protects⟩
  induction hlt with
  | refl => exact ⟨ends, hfirst⟩
  | @step n hlt ih =>
      have hbefore : r.Undisturbed f n claim m.id :=
        ⟨fun k hfk hkn => hundisturbed.kept k hfk (Nat.lt_succ_of_lt hkn),
          fun k hfk hkn => hundisturbed.unmarked k hfk (Nat.lt_succ_of_lt hkn),
          fun k hfk hkn => hundisturbed.early k hfk (Nat.lt_succ_of_lt hkn)⟩
      obtain ⟨ends, hleased, huntil⟩ := ih hbefore
      exact leased_step hundisturbed hlt hleased huntil

theorem calls_iff_of_outside {call c : StoreCall} (hevent : r.event n = .outside call) :
    r.Calls n c ↔ c = call := by
  have hmade : r.Calls n call := by
    rw [Calls, hevent]
    exact .outside call
  exact ⟨fun hcalls => Fleet.Calls.unique hcalls hmade, fun heq => heq ▸ hmade⟩

/-- A message is fetched for a second and renewed for two. Meanwhile another claim tries to fetch
it, to mark it and to give it back, and a sweep comes by. -/
def contested : List Event :=
  let first := ClaimToken.numbered 1
  let second := ClaimToken.numbered 2
  let m := Message.numbered 1 "order" .epoch
  let later := Instant.numbered 1
  [.commit (.single m),
    .outside (.fetch first 1 .epoch (.ofSeconds 1)),
    .outside (.renew first [m.id] .epoch (.ofSeconds 2)),
    .outside (.fetch second 1 later (.ofSeconds 1)),
    .outside (.markProcessed second m.id later),
    .outside (.release second [m.id]),
    .outside (.deleteProcessed later)]

def contestedRun : Run := ofScript .empty contested (by decide +kernel)

/-- At the second fetch the lease of the renewal counts, not that of the first fetch. -/
theorem contested_is_protected :
    let id := (Message.numbered 1 "order" .epoch).id
    contestedRun.Returns 1 (.numbered 1) id ∧
      contestedRun.Undisturbed 1 7 (.numbered 1) id ∧
      ∃ row ends, row.id = id ∧ contestedRun.LeasedUntil 7 (.numbered 1) id ends ∧
        (contestedRun.table 7).Protects (.numbered 1) row ends := by
  intro id
  have hcalls (k : Nat) (call c : StoreCall) (hevent : contestedRun.event k = .outside call) :
      contestedRun.Calls k c ↔ c = call := calls_iff_of_outside hevent
  have hreturns : contestedRun.Returns 1 (.numbered 1) id :=
    ⟨.epoch, 1, .ofSeconds 1, (hcalls 1 _ _ rfl).mpr rfl, by decide +kernel⟩
  have hothers : ∀ k, 2 < k → k < 7 → ∀ c, contestedRun.Calls k c →
      c.claim? ≠ some (.numbered 1) := by
    intro k hk hkn c hc
    obtain rfl | rfl | rfl | rfl : k = 3 ∨ k = 4 ∨ k = 5 ∨ k = 6 := by omega
    all_goals
      rw [(hcalls _ _ _ rfl).mp hc]
      decide
  have hfetches : ∀ k, 1 < k → k < 7 → ∀ c, contestedRun.Calls k c → c.method = .fetch →
      k = 3 := by
    intro k hk hkn c hc
    obtain rfl | rfl | rfl | rfl | rfl : k = 2 ∨ k = 3 ∨ k = 4 ∨ k = 5 ∨ k = 6 := by omega
    all_goals
      rw [(hcalls _ _ _ rfl).mp hc]
      decide
  have hundisturbed : contestedRun.Undisturbed 1 7 (.numbered 1) id := by
    refine ⟨fun k hk hkn => ?_, fun k hk hkn => ?_, fun k hk hkn => ?_⟩
    · rintro ⟨ids, hrelease, _⟩
      obtain rfl | hlater : k = 2 ∨ 2 < k := by omega
      · cases (hcalls 2 _ _ rfl).mp hrelease
      · exact hothers k hlater hkn _ hrelease rfl
    · rintro (⟨time, hmark⟩ | ⟨error, nextRun, hmark⟩)
      all_goals
        obtain rfl | hlater : k = 2 ∨ 2 < k := by omega
        · cases (hcalls 2 _ _ rfl).mp hmark
        · exact hothers k hlater hkn _ hmark rfl
    · intro c limit now lease hfetch ends huntil
      obtain rfl := hfetches k hk hkn _ hfetch rfl
      obtain ⟨g, hg, hgrants, hlatest⟩ := huntil
      have hrenewal : contestedRun.Grants 2 (.numbered 1) id
          (Instant.epoch.plusOrSelf (.ofSeconds 2)) :=
        .inr ⟨[id], .epoch, .ofSeconds 2, (hcalls 2 _ _ rfl).mpr rfl, by decide +kernel, rfl⟩
      obtain rfl : g = 2 := by
        by_contra hne
        exact hlatest 2 (by omega) (by omega) _ hrenewal
      cases (hcalls 3 _ _ rfl).mp hfetch
      rcases hgrants with ⟨_, _, _, hcall, _⟩ | ⟨_, _, _, hcall, _, rfl⟩
      · cases (hcalls 2 _ _ rfl).mp hcall
      · cases (hcalls 2 _ _ rfl).mp hcall
        decide
  exact ⟨hreturns, hundisturbed, lease_protects hreturns (by decide) hundisturbed⟩

end Run

end Outbox
