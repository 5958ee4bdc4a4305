import Outbox.Proofs.Wiring
import Mathlib.Data.String.Basic

/-! # What is registered

Offers come one after the other, and some are refused. A registry can be kept as slots under tags,
and a slot is then there before it is known whether the offer is refused. That leaves no trace: an
offer is refused only by a consumer that is in the slot already. So at any time there are slots for
just the tags that have a consumer, and every question is answered as if consumers were taken from
the offers by name, the first one of each name.
-/

namespace Outbox

/-- An offer to a registry. -/
inductive Offer (κ : Type)
  /-- A consumer of payloads of one type, under the tag of that type. -/
  | typed (tag : MessageType) (consumer : κ)
  /-- A consumer of notifications of a domain event. -/
  | event (name : String) (consumer : κ)
  /-- A consumer of content as it is stored. -/
  | raw (tag : MessageType) (consumer : κ)
  /-- A consumer of which nothing is known. -/
  | erased (tag : MessageType) (consumer : κ)

namespace Offer

variable {κ : Type}

def tag : Offer κ → MessageType
  | typed tag _ => tag
  | event name _ => .event name
  | raw tag _ => tag
  | erased tag _ => tag

def consumer : Offer κ → κ
  | typed _ consumer => consumer
  | event _ consumer => consumer
  | raw _ consumer => consumer
  | erased _ consumer => consumer

/-- The consumers that are offered for a tag, in the order of the offers. -/
def forTag (offers : List (Offer κ)) (tag : MessageType) : List κ :=
  (offers.filter (·.tag == tag)).map consumer

/-- Makes the offers one after the other, to something that answers each and may change by it. -/
def makeAll {ρ : Type} (offer : ρ → Offer κ → Except RegistryError Unit × ρ) (r : ρ) :
    List (Offer κ) → List (Except RegistryError Unit) × ρ
  | [] => ([], r)
  | o :: rest =>
      let (answer, next) := offer r o
      let (answers, last) := makeAll offer next rest
      (answer :: answers, last)

end Offer

/-- The consumers have the same name. -/
def sameName {κ : Type} [Named κ] (a b : κ) : Bool := Named.name a == Named.name b

theorem sameName_comm {κ : Type} [Named κ] (a b : κ) : sameName a b = sameName b a := BEq.comm

/-- All that a registry is asked. -/
structure RegistryAnswers (κ : Type) where
  consumersFor : MessageType → List κ
  isRegistered : MessageType → Bool
  registeredTypes : List MessageType
  size : Nat

/-! ### Registries as lists of entries -/

namespace Registry

variable {κ : Type}

def answers (r : Registry κ) : RegistryAnswers κ :=
  ⟨r.consumersFor, r.isRegistered, r.registeredTypes, r.size⟩

/-- Makes an offer. A registry that refuses it stays as it is. -/
def offer [Named κ] (r : Registry κ) (o : Offer κ) : Except RegistryError Unit × Registry κ :=
  match r.register o.tag o.consumer with
  | .ok next => (.ok (), next)
  | .error refused => (.error refused, r)

/-- A type is entered, and the others stay. -/
theorem mem_insertType {tag other : MessageType} {types : List MessageType} :
    other ∈ insertType tag types ↔ other = tag ∨ other ∈ types := by
  induction types with
  | nil => simp [insertType]
  | cons first rest ih =>
      unfold insertType
      split
      · simp
      · split
        next heq => simp [heq]
        next => simp [ih, or_left_comm]

theorem pairwise_insertType (tag : MessageType) {types : List MessageType}
    (hsorted : types.Pairwise fun a b => a.tag < b.tag) :
    (insertType tag types).Pairwise fun a b => a.tag < b.tag := by
  induction types with
  | nil => simp [insertType]
  | cons first rest ih =>
      obtain ⟨hfirst, hrest⟩ := List.pairwise_cons.mp hsorted
      unfold insertType
      split
      next hlt =>
        refine List.pairwise_cons.mpr ⟨?_, hsorted⟩
        exact List.forall_mem_cons.mpr ⟨hlt, fun t ht => hlt.trans (hfirst t ht)⟩
      next hnot =>
        split
        next => exact hsorted
        next hne =>
          have hgt : first.tag < tag.tag := by
            refine lt_of_le_of_ne (not_lt.mp hnot) fun heq => hne ?_
            cases tag
            cases first
            exact congrArg MessageType.mk heq.symm
          refine List.pairwise_cons.mpr ⟨fun t ht => ?_, ih hrest⟩
          rcases mem_insertType.mp ht with rfl | hmem
          · exact hgt
          · exact hfirst t hmem

/-- The registered types are sorted by their tags, each of them once. -/
theorem registeredTypes_pairwise (r : Registry κ) :
    r.registeredTypes.Pairwise fun a b => a.tag < b.tag := by
  unfold registeredTypes
  induction r.entries with
  | nil => simp
  | cons entry entries ih => exact pairwise_insertType entry.1 ih

/-- The types that are listed are those with a consumer. -/
theorem mem_registeredTypes {r : Registry κ} {tag : MessageType} :
    tag ∈ r.registeredTypes ↔ r.isRegistered tag := by
  rw [isRegistered_eq]
  unfold registeredTypes
  induction r.entries with
  | nil => simp
  | cons entry entries ih =>
      rw [List.foldr_cons, mem_insertType, ih, List.any_cons, Bool.or_eq_true, beq_iff_eq, eq_comm]

/-- A new consumer comes last for its tag, and no other tag gets one. -/
theorem consumersFor_add (r : Registry κ) (tag : MessageType) (k : κ) (t : MessageType) :
    consumersFor ⟨r.entries ++ [(tag, k)]⟩ t =
      if t = tag then r.consumersFor t ++ [k] else r.consumersFor t := by
  unfold consumersFor
  rw [List.filter_append, List.map_append]
  split
  next heq => simp [heq]
  next hne => simp [Ne.symm hne]

variable [Named κ]

/-- An offer is refused for a consumer of that name, or becomes the last entry. -/
theorem offer_cases (r : Registry κ) (o : Offer κ) :
    ((∃ k ∈ r.consumersFor o.tag, sameName k o.consumer) ∧
      r.offer o = (.error ⟨o.tag, Named.name o.consumer⟩, r)) ∨
    ((∀ k ∈ r.consumersFor o.tag, ¬ sameName k o.consumer) ∧
      r.offer o = (.ok (), ⟨r.entries ++ [(o.tag, o.consumer)]⟩)) := by
  by_cases htaken : (r.consumersFor o.tag).any (sameName · o.consumer)
  · refine .inl ⟨List.any_eq_true.mp htaken, ?_⟩
    have hregister : r.register o.tag o.consumer = .error ⟨o.tag, Named.name o.consumer⟩ :=
      if_pos htaken
    rw [offer, hregister]
  · refine .inr ⟨fun k hk hsame => htaken (List.any_eq_true.mpr ⟨k, hk, hsame⟩), ?_⟩
    have hregister : r.register o.tag o.consumer = .ok ⟨r.entries ++ [(o.tag, o.consumer)]⟩ :=
      if_neg htaken
    rw [offer, hregister]

/-- After any offers, a tag has the consumers that it had before, and of the others that were
offered for it the first one of each name. -/
theorem consumersFor_makeAll (r : Registry κ) (offers : List (Offer κ)) (tag : MessageType) :
    (Offer.makeAll offer r offers).2.consumersFor tag = r.consumersFor tag ++
      ((Offer.forTag offers tag).filter fun k =>
        !(r.consumersFor tag).any (sameName · k)).eraseDupsBy sameName := by
  induction offers generalizing r with
  | nil => simp [Offer.makeAll, Offer.forTag]
  | cons o rest ih =>
      rw [Offer.makeAll, ih]
      by_cases htag : o.tag = tag
      · subst htag
        have hoffered : Offer.forTag (o :: rest) o.tag =
            o.consumer :: Offer.forTag rest o.tag := by
          simp [Offer.forTag]
        rw [hoffered]
        rcases r.offer_cases o with ⟨hsome, heq⟩ | ⟨hnone, heq⟩
        · rw [heq, List.filter_cons_of_neg (by simpa using hsome)]
        · -- from here on the name of this consumer counts as taken, in either reading
          have htaken : (fun k => !((r.consumersFor o.tag) ++ [o.consumer]).any (sameName · k)) =
              fun k => decide (sameName k o.consumer = false) &&
                !(r.consumersFor o.tag).any (sameName · k) := by
            funext k
            rw [List.any_append, sameName_comm k]
            cases hname : sameName o.consumer k <;> simp [hname]
          rw [heq, List.filter_cons_of_pos (by simpa using hnone), List.eraseDupsBy_cons,
            List.filter_filter, consumersFor_add, if_pos rfl, htaken, List.append_assoc]
          rfl
      · have hoffered : Offer.forTag (o :: rest) tag = Offer.forTag rest tag := by
          simp [Offer.forTag, htag]
        have hkept : (r.offer o).2.consumersFor tag = r.consumersFor tag := by
          rcases r.offer_cases o with ⟨_, heq⟩ | ⟨_, heq⟩
          · rw [heq]
          · rw [heq, consumersFor_add, if_neg (Ne.symm htag)]
        rw [hoffered, hkept]

/-- An offer that is accepted adds one consumer, and one that is refused none. -/
theorem size_offer (r : Registry κ) (o : Offer κ) :
    (r.offer o).2.size = r.size + if (r.offer o).1.isOk then 1 else 0 := by
  rcases r.offer_cases o with ⟨_, heq⟩ | ⟨_, heq⟩
  · rw [heq]
    rfl
  · rw [heq]
    simp [size, Except.isOk, Except.toBool]

/-- There are as many consumers as offers were accepted. -/
theorem size_makeAll (r : Registry κ) (offers : List (Offer κ)) :
    (Offer.makeAll offer r offers).2.size =
      r.size + (Offer.makeAll offer r offers).1.countP (·.isOk) := by
  induction offers generalizing r with
  | nil => rfl
  | cons o rest ih =>
      rw [Offer.makeAll, ih, size_offer, List.countP_cons]
      omega

/-- Of the consumers that were offered for a tag those are there that were the first with their
names. -/
theorem empty_makeAll_consumersFor (offers : List (Offer κ)) (tag : MessageType) :
    (Offer.makeAll offer empty offers).2.consumersFor tag =
      (Offer.forTag offers tag).eraseDupsBy sameName := by
  rw [consumersFor_makeAll]
  exact congrArg (List.eraseDupsBy sameName) (List.filter_eq_self.mpr fun _ _ => rfl)

end Registry

/-! ### Registries as slots -/

/-- A registry as a map. Tags have slots, and a slot has the consumers of its tag. -/
structure Slots (κ : Type) where
  tags : List MessageType
  slot : MessageType → List κ

namespace Slots

variable {κ : Type}

def empty : Slots κ := ⟨[], fun _ => []⟩

def consumersFor (s : Slots κ) (tag : MessageType) : List κ :=
  if tag ∈ s.tags then s.slot tag else []

/-- All consumers are counted, slot by slot. -/
def answers (s : Slots κ) : RegistryAnswers κ where
  consumersFor := s.consumersFor
  isRegistered tag := !(s.consumersFor tag).isEmpty
  registeredTypes := s.tags.mergeSort MessageType.le
  size := (s.tags.flatMap s.slot).length

/-- Makes sure that the tag has a slot. A new one is empty. -/
def opened (s : Slots κ) (tag : MessageType) : Slots κ :=
  if tag ∈ s.tags then s else ⟨tag :: s.tags, Function.update s.slot tag []⟩

/-- Makes an offer. The slot of the tag is opened first, whatever becomes of the offer. -/
def offer [Named κ] (s : Slots κ) (o : Offer κ) : Except RegistryError Unit × Slots κ :=
  let ready := s.opened o.tag
  if (ready.slot o.tag).any (sameName · o.consumer) then
    (.error ⟨o.tag, Named.name o.consumer⟩, ready)
  else
    (.ok (), { ready with
      slot := Function.update ready.slot o.tag (ready.slot o.tag ++ [o.consumer]) })

/-- The slots have the consumers of the registry, and none of them is empty. -/
structure Holds (s : Slots κ) (r : Registry κ) : Prop where
  nodup : s.tags.Nodup
  mem_tags (tag : MessageType) : tag ∈ s.tags ↔ r.consumersFor tag ≠ []
  slot {tag : MessageType} (hmem : tag ∈ s.tags) : s.slot tag = r.consumersFor tag
  length : (s.tags.flatMap s.slot).length = r.size

theorem holds_empty : (empty : Slots κ).Holds .empty where
  nodup := .nil
  mem_tags tag := by simp [empty, Registry.consumersFor, Registry.empty]
  slot hmem := by simp [empty] at hmem
  length := rfl

theorem flatMap_update_of_not_mem {f : MessageType → List κ} {tags : List MessageType}
    {tag : MessageType} (hnot : tag ∉ tags) (ks : List κ) :
    tags.flatMap (Function.update f tag ks) = tags.flatMap f := by
  refine List.flatMap_congr fun t ht => Function.update_of_ne ?_ _ _
  rintro rfl
  exact hnot ht

theorem length_flatMap_update {f : MessageType → List κ} {tags : List MessageType}
    (hnodup : tags.Nodup) {tag : MessageType} (hmem : tag ∈ tags) (k : κ) :
    (tags.flatMap (Function.update f tag (f tag ++ [k]))).length =
      (tags.flatMap f).length + 1 := by
  induction tags with
  | nil => simp at hmem
  | cons t tags ih =>
      obtain ⟨hnot, hrest⟩ := List.nodup_cons.mp hnodup
      rw [List.flatMap_cons, List.flatMap_cons, List.length_append, List.length_append]
      by_cases heq : t = tag
      · subst heq
        rw [Function.update_self, flatMap_update_of_not_mem hnot, List.length_append,
          List.length_singleton]
        omega
      · have hmem' : tag ∈ tags := (List.mem_cons.mp hmem).resolve_left (Ne.symm heq)
        rw [Function.update_of_ne heq, ih hrest hmem']
        omega

section Opened

variable (s : Slots κ) (tag : MessageType)

theorem opened_of_mem {s : Slots κ} {tag : MessageType} (hmem : tag ∈ s.tags) :
    s.opened tag = s := if_pos hmem

theorem mem_tags_opened {t : MessageType} : t ∈ (s.opened tag).tags ↔ t = tag ∨ t ∈ s.tags := by
  unfold opened
  split
  next hmem =>
    refine ⟨.inr, ?_⟩
    rintro (rfl | ht)
    · exact hmem
    · exact ht
  next => exact List.mem_cons

theorem nodup_opened (hnodup : s.tags.Nodup) : (s.opened tag).tags.Nodup := by
  unfold opened
  split
  next => exact hnodup
  next hnot => exact List.nodup_cons.mpr ⟨hnot, hnodup⟩

theorem slot_opened_of_ne {t : MessageType} (hne : t ≠ tag) :
    (s.opened tag).slot t = s.slot t := by
  unfold opened
  split
  next => rfl
  next => exact Function.update_of_ne hne _ _

/-- The slot that is opened adds no consumers. -/
theorem flatMap_opened :
    (s.opened tag).tags.flatMap (s.opened tag).slot = s.tags.flatMap s.slot := by
  unfold opened
  split
  next => rfl
  next hnot =>
    change Function.update s.slot tag [] tag ++ s.tags.flatMap (Function.update s.slot tag []) = _
    rw [Function.update_self, List.nil_append, flatMap_update_of_not_mem hnot]

end Opened

namespace Holds

variable {s : Slots κ} {r : Registry κ}

theorem consumersFor_eq (hholds : s.Holds r) (tag : MessageType) :
    s.consumersFor tag = r.consumersFor tag := by
  unfold consumersFor
  split
  next hmem => exact hholds.slot hmem
  next hnot =>
    rw [hholds.mem_tags, not_not] at hnot
    exact hnot.symm

theorem registeredTypes_eq (hholds : s.Holds r) :
    s.tags.mergeSort MessageType.le = r.registeredTypes := by
  have hperm := List.mergeSort_perm s.tags MessageType.le
  have htypes : r.registeredTypes.Pairwise fun a b => a.tag < b.tag := r.registeredTypes_pairwise
  have hsorted : (s.tags.mergeSort MessageType.le).Pairwise fun a b => a.tag ≤ b.tag := by
    refine (List.pairwise_mergeSort ?_ ?_ s.tags).imp fun hle => of_decide_eq_true hle
    · intro a b c hab hbc
      exact decide_eq_true ((of_decide_eq_true hab).trans (of_decide_eq_true hbc))
    · intro a b
      simp [le_total]
  have hsame : s.tags.Perm r.registeredTypes := by
    refine (List.perm_ext_iff_of_nodup hholds.nodup ?_).mpr fun tag => ?_
    · refine htypes.imp ?_
      rintro a _ hlt rfl
      exact lt_irrefl a.tag hlt
    · rw [hholds.mem_tags, Registry.mem_registeredTypes, Registry.isRegistered_iff]
  refine List.Perm.eq_of_pairwise (fun a b _ _ hab hba => ?_) hsorted (htypes.imp le_of_lt)
    (hperm.trans hsame)
  cases a
  cases b
  exact congrArg MessageType.mk (le_antisymm hab hba)

theorem slot_opened (hholds : s.Holds r) (tag : MessageType) :
    (s.opened tag).slot tag = r.consumersFor tag := by
  by_cases hmem : tag ∈ s.tags
  · rw [opened_of_mem hmem, hholds.slot hmem]
  · have hnone : r.consumersFor tag = [] := by
      rwa [hholds.mem_tags, not_not] at hmem
    rw [opened, if_neg hmem, hnone]
    exact Function.update_self _ _ _

theorem add (hholds : s.Holds r) (tag : MessageType) (k : κ) :
    Holds ⟨(s.opened tag).tags, Function.update (s.opened tag).slot tag
      ((s.opened tag).slot tag ++ [k])⟩ ⟨r.entries ++ [(tag, k)]⟩ where
  nodup := s.nodup_opened tag hholds.nodup
  mem_tags t := by
    rw [mem_tags_opened, hholds.mem_tags, Registry.consumersFor_add]
    split
    next heq => simp [heq]
    next hne => simp [hne]
  slot {t} hmem := by
    rw [Registry.consumersFor_add]
    split
    next heq =>
      subst heq
      rw [← hholds.slot_opened t]
      exact Function.update_self _ _ _
    next hne =>
      have hopen : t ∈ s.tags := ((s.mem_tags_opened tag).mp hmem).resolve_left hne
      rw [← hholds.slot hopen, ← s.slot_opened_of_ne tag hne]
      exact Function.update_of_ne hne _ _
  length := by
    have hopen : tag ∈ (s.opened tag).tags := (s.mem_tags_opened tag).mpr (.inl rfl)
    rw [length_flatMap_update (s.nodup_opened tag hholds.nodup) hopen, flatMap_opened,
      hholds.length, Registry.size, Registry.size, List.length_append, List.length_singleton]

/-- The slots answer as the list of entries does. -/
theorem answers_eq (hholds : s.Holds r) : s.answers = r.answers := by
  have hconsumers : s.consumersFor = r.consumersFor := funext hholds.consumersFor_eq
  rw [answers, hconsumers, hholds.registeredTypes_eq, hholds.length]
  rfl

variable [Named κ]

/-- An offer that is refused leaves the slots as they were, since the slot of its tag was open. -/
theorem offer_of_refused (hholds : s.Holds r) {o : Offer κ}
    (htaken : ∃ k ∈ r.consumersFor o.tag, sameName k o.consumer) :
    s.offer o = (.error ⟨o.tag, Named.name o.consumer⟩, s) := by
  obtain ⟨k, hk, hname⟩ := htaken
  have hopen : o.tag ∈ s.tags := (hholds.mem_tags _).mpr (List.ne_nil_of_mem hk)
  have hany : (s.slot o.tag).any (sameName · o.consumer) := by
    rw [hholds.slot hopen]
    exact List.any_eq_true.mpr ⟨k, hk, hname⟩
  rw [Slots.offer, opened_of_mem hopen]
  exact if_pos hany

/-- An offer is answered alike, and leaves the slots with what it leaves in the registry. -/
theorem offer (hholds : s.Holds r) (o : Offer κ) :
    (s.offer o).1 = (r.offer o).1 ∧ (s.offer o).2.Holds (r.offer o).2 := by
  rcases r.offer_cases o with ⟨htaken, heq⟩ | ⟨hfree, heq⟩
  · rw [heq, hholds.offer_of_refused htaken]
    exact ⟨rfl, hholds⟩
  · have hnone : ¬ ((s.opened o.tag).slot o.tag).any (sameName · o.consumer) := by
      rw [hholds.slot_opened, List.any_eq_true]
      rintro ⟨k, hk, hname⟩
      exact hfree k hk hname
    rw [heq, Slots.offer, if_neg hnone]
    exact ⟨rfl, hholds.add o.tag o.consumer⟩

/-- The same offers have the same outcomes, and lead to slots that hold the same consumers. -/
theorem makeAll (hholds : s.Holds r) (offers : List (Offer κ)) :
    (Offer.makeAll Slots.offer s offers).1 = (Offer.makeAll Registry.offer r offers).1 ∧
      (Offer.makeAll Slots.offer s offers).2.Holds (Offer.makeAll Registry.offer r offers).2 := by
  induction offers generalizing s r with
  | nil => exact ⟨rfl, hholds⟩
  | cons o rest ih =>
      obtain ⟨hanswer, hnext⟩ := hholds.offer o
      obtain ⟨hanswers, hlast⟩ := ih hnext
      exact ⟨congrArg₂ List.cons hanswer hanswers, hlast⟩

end Holds

end Slots

section History

variable {κ : Type} [Named κ]

/-- Whatever was offered, the registry has for each tag the consumers that were offered for it, in
order, the first one of each name. An offer is refused just if there is a consumer of that name for
the tag, and no question is answered differently after it. The tags that have consumers are listed
in ascending order, and there are as many consumers as offers were accepted. A registry kept as
slots, which are opened before it is known whether the offer is refused, answers all offers and all
questions alike. -/
theorem registrations_normalize (offers : List (Offer κ)) :
    let made := Offer.makeAll Registry.offer .empty offers
    let kept := Offer.makeAll Slots.offer .empty offers
    let r := made.2
    let s := kept.2
    kept.1 = made.1 ∧ s.answers = r.answers ∧
    (∀ tag, r.consumersFor tag = (Offer.forTag offers tag).eraseDupsBy sameName) ∧
    (∀ o, (s.offer o).1 = (r.offer o).1 ∧
      ((∃ e, (r.offer o).1 = .error e) ↔ ∃ k ∈ r.consumersFor o.tag, sameName k o.consumer) ∧
      ∀ e, (r.offer o).1 = .error e → e = ⟨o.tag, Named.name o.consumer⟩ ∧
        (r.offer o).2.answers = r.answers ∧ (s.offer o).2.answers = s.answers) ∧
    r.registeredTypes.Pairwise (fun a b => a.tag < b.tag) ∧
    (∀ tag, tag ∈ r.registeredTypes ↔ r.isRegistered tag) ∧
    r.size = made.1.countP (·.isOk) := by
  intro made kept r s
  obtain ⟨hanswered, hholds⟩ : kept.1 = made.1 ∧ s.Holds r := Slots.holds_empty.makeAll offers
  refine ⟨hanswered, hholds.answers_eq, Registry.empty_makeAll_consumersFor offers, fun o => ?_,
    r.registeredTypes_pairwise, fun tag => Registry.mem_registeredTypes, ?_⟩
  · refine ⟨(hholds.offer o).1, ?_⟩
    rcases r.offer_cases o with ⟨htaken, heq⟩ | ⟨hfree, heq⟩
    · rw [hholds.offer_of_refused htaken, heq]
      refine ⟨⟨fun _ => htaken, fun _ => ⟨_, rfl⟩⟩, fun e he => ?_⟩
      exact ⟨(Except.error.inj he).symm, rfl, rfl⟩
    · rw [heq]
      refine ⟨⟨?_, ?_⟩, ?_⟩
      · rintro ⟨e, he⟩
        cases he
      · rintro ⟨k, hk, hname⟩
        exact absurd hname (hfree k hk)
      · intro e he
        cases he
  · have hsize := Registry.empty.size_makeAll offers
    rwa [show (Registry.empty : Registry κ).size = 0 from rfl, Nat.zero_add] at hsize

end History

/-- A second mailer for orders is refused, and one for the event is not. -/
theorem registrations_normalize_repeated :
    let order : MessageType := ⟨"order"⟩
    let mailer := Blueprint.mailer
    let audit : PromptConsumer := ⟨"audit", .raw, fun _ _ => .succeeded⟩
    let made := Offer.makeAll Registry.offer .empty
      [.typed order mailer, .event "OrderPaid" mailer, .raw order mailer, .erased order audit]
    made.1[2]? = some (.error ⟨order, "mailer"⟩) ∧
      made.2.consumersFor order = [mailer, audit] ∧
      order ∈ made.2.registeredTypes ∧ made.2.size = 3 := by
  intro order mailer audit made
  obtain ⟨_, _, hconsumers, _, _, htypes, hsize⟩ := registrations_normalize
    [.typed order mailer, .event "OrderPaid" mailer, .raw order mailer, .erased order audit]
  have horder : made.2.consumersFor order = [mailer, audit] := hconsumers order
  refine ⟨rfl, horder, (htypes order).mpr ?_, hsize⟩
  rw [Registry.isRegistered_iff, horder]
  exact List.cons_ne_nil _ _

end Outbox
