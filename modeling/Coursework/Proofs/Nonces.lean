import Coursework.Nonces
import Coursework.Proofs.Table

/-!
# The life of a nonce

A nonce is minted with a guard.  It stops being live when it is spent or when its guard is given up,
and these two come from different sides: a public request spends the nonce that it shows, whenever
it comes, and the local connection that had the nonce minted gives up the guard once it has its
answer, whether the nonce was spent or not.

A `Vault` is the register of a server with the guards that are held.  An `Event` is one operation on
the register by anybody, and a run is any list of events, so that it stands for any number of
connections and requests in any order.  What an event came to is a `Happening`, and the trace of a
run says it of all events in their order.

`Vault.single_use` says which nonces are live after a run, in terms of its trace, and that no nonce
is spent that was spent before or whose guard is gone.  It rests on the randomness of nonces: none
is drawn twice.
-/

set_option autoImplicit false

namespace Coursework

/-! ## The register -/

namespace Nonces

theorem contains_insert (s : Nonces) (nonce n : String) :
    (s.insert nonce).contains n = true ↔ n = nonce ∨ s.contains n = true := by
  rw [insert]
  split
  · next h => exact ⟨.inr, fun hn => hn.elim (fun he => he ▸ h) id⟩
  · simp [contains]

theorem contains_remove (s : Nonces) (nonce n : String) :
    (s.remove nonce).contains n = true ↔ n ≠ nonce ∧ s.contains n = true := by
  simp [contains, remove, and_comm]

theorem remove_of_not_contains {s : Nonces} {nonce : String} (h : s.contains nonce = false) :
    s.remove nonce = s := by
  have hne : ∀ n ∈ s.live, (n != nonce) = true := by
    intro n hn
    rw [bne_iff_ne]
    rintro rfl
    simp [contains, hn] at h
  rw [remove, List.filter_eq_self.2 hne]

theorem contains_mint (s : Nonces) (e : Entropy) (n : String) :
    (s.mint e).2.1.contains n = true ↔ n = (s.mint e).1 ∨ s.contains n = true :=
  contains_insert s _ n

theorem consume_fst_iff (s : Nonces) (text : String) :
    (s.consume text).1 = true ↔ text ≠ "" ∧ s.contains text = true := by
  rw [consume]
  split
  · next h => simp [h]
  · next h => simp [h]

theorem consume_of_true {s : Nonces} {text : String} (h : (s.consume text).1 = true) :
    (s.consume text).2 = s.remove text := by
  rw [consume, if_neg ((consume_fst_iff s text).1 h).1]

/-- The empty text and what is not live are refused, and the register stays as it is. -/
theorem consume_of_not_live {s : Nonces} {text : String}
    (h : text = "" ∨ s.contains text = false) : s.consume text = (false, s) := by
  rw [consume]
  split
  · rfl
  · next hne =>
    have hnot := h.resolve_left hne
    rw [hnot, remove_of_not_contains hnot]

theorem consume_of_false {s : Nonces} {text : String} (h : ¬ (s.consume text).1 = true) :
    s.consume text = (false, s) := by
  refine consume_of_not_live (Decidable.or_iff_not_imp_left.2 fun hne => ?_)
  rw [← Bool.not_eq_true]
  exact fun hlive => h ((consume_fst_iff s text).2 ⟨hne, hlive⟩)

theorem count_eq_zero_iff (s : Nonces) :
    s.count = 0 ↔ ∀ nonce, s.contains nonce = false := by
  rw [count, List.length_eq_zero_iff, List.eq_nil_iff_forall_not_mem]
  simp [contains]

end Nonces

/-! ## Runs -/

/-- The register of nonces of a server, and the guards that are held, by their numbers. -/
structure Vault where
  nonces : Nonces
  guards : Table Nat String
  next : Nat

namespace Vault

/-- One operation on the register: a nonce is minted out of random octets, with a guard; somebody
shows a text as a nonce, or asks whether it is one; a guard is given up. -/
inductive Event where
  | mint (e : Entropy)
  | consume (text : String)
  | look (text : String)
  | release (guard : Nat)

/-- What an event came to.  A `minted` nonce came to be, a `spent` one is gone, and so is a `voided`
one, whose guard was given up; a text was `refused`, or somebody learnt whether it is live (`seen`).
Of a guard that is not there, `nothing` comes. -/
inductive Happening where
  | minted (nonce : String)
  | spent (nonce : String)
  | refused (text : String)
  | seen (text : String) (live : Bool)
  | voided (nonce : String)
  | nothing
deriving DecidableEq

def opened : Vault := ⟨.empty, Table.empty, 0⟩

/-- What an event comes to, by the register before it. -/
def happening (v : Vault) : Event → Happening
  | .mint e => .minted (v.nonces.mint e).1
  | .consume text => if (v.nonces.consume text).1 then .spent text else .refused text
  | .look text => .seen text (v.nonces.contains text)
  | .release guard =>
    match v.guards.find? guard with
    | some nonce => .voided nonce
    | none => .nothing

/-- One event, as `Nonces` has it. -/
def step (v : Vault) : Event → Vault
  | .mint e =>
    ⟨(v.nonces.mint e).2.1, v.guards.insert v.next (v.nonces.mint e).1, v.next + 1⟩
  | .consume text => { v with nonces := (v.nonces.consume text).2 }
  | .look _ => v
  | .release guard =>
    match v.guards.find? guard with
    | some nonce =>
      { v with nonces := v.nonces.release nonce, guards := v.guards.erase guard }
    | none => v

def run (v : Vault) (events : List Event) : Vault :=
  events.foldl step v

/-- What the events of a run come to (`happening`), in their order: the past of the register after
it. -/
def trace : Vault → List Event → List Happening
  | _, [] => []
  | v, e :: events => v.happening e :: trace (v.step e) events

/-- Somebody holds the guard of a nonce. -/
def Guarded (v : Vault) (nonce : String) : Prop :=
  ∃ guard, v.guards.find? guard = some nonce

def Happening.minted? : Happening → Option String
  | .minted nonce => some nonce
  | _ => none

def Happening.subject? : Happening → Option String
  | .minted nonce | .spent nonce | .voided nonce => some nonce
  | .refused text | .seen text _ => some text
  | .nothing => none

/-- What happened earlier allows what happens later: a nonce that is spent was not spent before, and
its guard was not given up. -/
def Allows (earlier later : Happening) : Prop :=
  ∀ nonce, later = .spent nonce → earlier ≠ .spent nonce ∧ earlier ≠ .voided nonce

/-! ## The invariant -/

/-- The register as the past has left it.  The numbers of guards run below `next`, a nonce has one
guard (`unique`), what is gone was there (`known`), and a nonce is live if it was minted, was not
spent, and its guard is held. -/
structure Sound (past : List Happening) (v : Vault) : Prop where
  numbered : ∀ guard nonce, v.guards.find? guard = some nonce → guard < v.next
  unique : ∀ g h nonce, v.guards.find? g = some nonce → v.guards.find? h = some nonce → g = h
  guarded : ∀ nonce, v.Guarded nonce ↔ .minted nonce ∈ past ∧ .voided nonce ∉ past
  live : ∀ nonce, v.nonces.contains nonce = true ↔ v.Guarded nonce ∧ .spent nonce ∉ past
  known : ∀ nonce, .spent nonce ∈ past ∨ .voided nonce ∈ past → .minted nonce ∈ past
  ordered : past.Pairwise Allows

theorem sound_opened : opened.Sound [] where
  numbered guard nonce h := by simp [opened] at h
  unique g h nonce hg := by simp [opened] at hg
  guarded nonce := by simp [Guarded, opened]
  live nonce := by simp [Guarded, opened, Nonces.empty, Nonces.contains]
  known nonce h := by simp at h
  ordered := List.Pairwise.nil

/-- The order by `Allows` is kept by whatever was allowed to happen. -/
theorem ordered_snoc {past : List Happening} (h : past.Pairwise Allows) {happened : Happening}
    (hallowed : ∀ earlier ∈ past, Allows earlier happened) :
    (past ++ [happened]).Pairwise Allows := by
  refine List.pairwise_append.2 ⟨h, List.pairwise_singleton _ _, ?_⟩
  intro earlier hearlier later hlater
  rw [List.mem_singleton.1 hlater]
  exact hallowed earlier hearlier

/-- What is neither a minting nor a spending nor a voiding says nothing of the register. -/
theorem Sound.unmoved {past : List Happening} {v : Vault} (h : v.Sound past)
    {happened : Happening} (hminted : ∀ nonce, happened ≠ .minted nonce)
    (hspent : ∀ nonce, happened ≠ .spent nonce) (hvoided : ∀ nonce, happened ≠ .voided nonce) :
    v.Sound (past ++ [happened]) where
  numbered := h.numbered
  unique := h.unique
  guarded nonce := by
    simp [h.guarded nonce, (hminted nonce).symm, (hvoided nonce).symm]
  live nonce := by
    simp [h.live nonce, (hspent nonce).symm]
  known nonce := by
    simpa [(hminted nonce).symm, (hspent nonce).symm, (hvoided nonce).symm] using h.known nonce
  ordered := ordered_snoc h.ordered fun _ _ nonce he => absurd he (hspent nonce)

/-- A nonce that is minted gets a guard, and the other guards are there as before. -/
theorem Sound.guarded_mint {past : List Happening} {v : Vault} (h : v.Sound past) (e : Entropy)
    (nonce : String) :
    (v.step (.mint e)).Guarded nonce ↔ nonce = (v.nonces.mint e).1 ∨ v.Guarded nonce := by
  have hguards : (v.step (.mint e)).guards = v.guards.insert v.next (v.nonces.mint e).1 := by
    rw [step]
  rw [Guarded, hguards]
  constructor
  · rintro ⟨guard, hguard⟩
    rw [Table.find?_insert] at hguard
    split at hguard
    · exact .inl (Option.some.inj hguard).symm
    · exact .inr ⟨guard, hguard⟩
  · rintro (rfl | ⟨guard, hguard⟩)
    · exact ⟨v.next, Table.find?_insert_self _ _ _⟩
    · have hne := Nat.ne_of_lt (h.numbered guard nonce hguard)
      exact ⟨guard, (Table.find?_insert_of_ne _ _ hne).trans hguard⟩

/-- A nonce that was not minted before comes with a guard of its own. -/
theorem Sound.mint {past : List Happening} {v : Vault} (h : v.Sound past) {e : Entropy}
    (hfresh : .minted (v.nonces.mint e).1 ∉ past) :
    (v.step (.mint e)).Sound (past ++ [.minted (v.nonces.mint e).1]) := by
  generalize hnew : (v.nonces.mint e).1 = new at hfresh ⊢
  have hguards : (v.step (.mint e)).guards = v.guards.insert v.next new := by
    rw [← hnew, step]
  have hlive := fun nonce => Nonces.contains_mint v.nonces e nonce
  have hguarded := h.guarded_mint e
  rw [hnew] at hlive hguarded
  have hunguarded : ¬ v.Guarded new := fun hg => hfresh ((h.guarded new).1 hg).1
  refine ⟨?_, ?_, ?_, ?_, ?_, ?_⟩
  · intro guard nonce hguard
    rw [hguards, Table.find?_insert] at hguard
    show guard < v.next + 1
    split at hguard
    · next he => exact he ▸ Nat.lt_succ_self _
    · exact Nat.lt_succ_of_lt (h.numbered guard nonce hguard)
  · intro g k nonce hg hk
    rw [hguards, Table.find?_insert] at hg hk
    split at hg <;> split at hk
    · next hgn hkn => rw [hgn, hkn]
    · cases hg
      exact absurd ⟨k, hk⟩ hunguarded
    · cases hk
      exact absurd ⟨g, hg⟩ hunguarded
    · exact h.unique g k nonce hg hk
  · intro nonce
    rw [hguarded, h.guarded]
    by_cases hn : nonce = new
    · subst hn
      have hvoided : .voided nonce ∉ past := fun hv => hfresh (h.known nonce (.inr hv))
      simp [hvoided]
    · simp [hn]
  · intro nonce
    rw [show (v.step (.mint e)).nonces = (v.nonces.mint e).2.1 from rfl, hlive, hguarded, h.live]
    by_cases hn : nonce = new
    · subst hn
      have hspent : .spent nonce ∉ past := fun hs => hfresh (h.known nonce (.inl hs))
      simp [hspent]
    · simp [hn]
  · intro nonce hgone
    have hpast : .spent nonce ∈ past ∨ .voided nonce ∈ past := by simpa using hgone
    exact List.mem_append_left _ (h.known nonce hpast)
  · exact ordered_snoc h.ordered fun _ _ nonce he => by cases he

/-- A nonce that is spent is live: it was not spent before, and its guard is held. -/
theorem Sound.spend {past : List Happening} {v : Vault} (h : v.Sound past) {text : String}
    (hspent : (v.nonces.consume text).1 = true) :
    (v.step (.consume text)).Sound (past ++ [.spent text]) := by
  obtain ⟨hguarded, hunspent⟩ := (h.live text).1 ((Nonces.consume_fst_iff _ _).1 hspent).2
  obtain ⟨hminted, hunvoided⟩ := (h.guarded text).1 hguarded
  refine ⟨h.numbered, h.unique, ?_, ?_, ?_, ?_⟩
  · intro nonce
    show v.Guarded nonce ↔ _
    simpa using h.guarded nonce
  · intro nonce
    show (v.nonces.consume text).2.contains nonce = true ↔ v.Guarded nonce ∧ _
    rw [Nonces.consume_of_true hspent, Nonces.contains_remove, h.live]
    simp only [List.mem_append, List.mem_singleton, Happening.spent.injEq, not_or]
    constructor
    · rintro ⟨hne, hg, hs⟩
      exact ⟨hg, hs, hne⟩
    · rintro ⟨hg, hs, hne⟩
      exact ⟨hne, hg, hs⟩
  · intro nonce hgone
    simp only [List.mem_append, List.mem_singleton, Happening.spent.injEq, reduceCtorEq,
      or_false] at hgone ⊢
    rcases hgone with (hs | rfl) | hv
    · exact h.known nonce (.inl hs)
    · exact hminted
    · exact h.known nonce (.inr hv)
  · refine ordered_snoc h.ordered fun earlier hearlier nonce he => ?_
    cases he
    exact ⟨fun hs => hunspent (hs ▸ hearlier), fun hv => hunvoided (hv ▸ hearlier)⟩

theorem Sound.guarded_void {past : List Happening} {v : Vault} (h : v.Sound past) {guard : Nat}
    {old : String} (hold : v.guards.find? guard = some old) (nonce : String) :
    Guarded { v with nonces := v.nonces.release old, guards := v.guards.erase guard } nonce ↔
      nonce ≠ old ∧ v.Guarded nonce := by
  constructor
  · rintro ⟨g, hg⟩
    rw [Table.find?_erase] at hg
    split at hg
    · cases hg
    · next hne =>
      refine ⟨?_, g, hg⟩
      rintro rfl
      exact hne (h.unique g guard nonce hg hold)
  · rintro ⟨hne, g, hg⟩
    refine ⟨g, (Table.find?_erase_of_ne _ ?_).trans hg⟩
    rintro rfl
    rw [hold] at hg
    exact hne (Option.some.inj hg).symm

/-- A nonce whose guard is given up is live no longer, if it still was. -/
theorem Sound.void {past : List Happening} {v : Vault} (h : v.Sound past) {guard : Nat}
    {old : String} (hold : v.guards.find? guard = some old) :
    Sound (past ++ [.voided old])
      { v with nonces := v.nonces.release old, guards := v.guards.erase guard } := by
  have hguarded := h.guarded_void hold
  have hminted := ((h.guarded old).1 ⟨guard, hold⟩).1
  refine ⟨?_, ?_, ?_, ?_, ?_, ?_⟩
  · intro g nonce hg
    rw [Table.find?_erase] at hg
    split at hg
    · cases hg
    · exact h.numbered g nonce hg
  · intro g k nonce hg hk
    rw [Table.find?_erase] at hg hk
    split at hg
    · cases hg
    · split at hk
      · cases hk
      · exact h.unique g k nonce hg hk
  · intro nonce
    rw [hguarded, h.guarded]
    simp only [List.mem_append, List.mem_singleton, Happening.voided.injEq, reduceCtorEq,
      or_false, not_or]
    constructor
    · rintro ⟨hne, hm, hv⟩
      exact ⟨hm, hv, hne⟩
    · rintro ⟨hm, hv, hne⟩
      exact ⟨hne, hm, hv⟩
  · intro nonce
    rw [hguarded]
    show (v.nonces.remove old).contains nonce = true ↔ _
    rw [Nonces.contains_remove, h.live, and_assoc]
    simp
  · intro nonce hgone
    simp only [List.mem_append, List.mem_singleton, Happening.voided.injEq, reduceCtorEq,
      or_false] at hgone ⊢
    rcases hgone with hs | hv | rfl
    · exact h.known nonce (.inl hs)
    · exact h.known nonce (.inr hv)
    · exact hminted
  · exact ordered_snoc h.ordered fun _ _ nonce he => by cases he

/-- One event keeps the register `Sound`, as long as no nonce comes up in it that was minted
before. -/
theorem Sound.step {past : List Happening} {v : Vault} (h : v.Sound past) (e : Event)
    (hfresh : ∀ nonce, v.happening e = .minted nonce → .minted nonce ∉ past) :
    (v.step e).Sound (past ++ [v.happening e]) := by
  cases e with
  | mint e => exact h.mint (hfresh _ rfl)
  | consume text =>
    rw [happening]
    split
    · next hspent => exact h.spend hspent
    · next hrefused =>
      rw [Vault.step, Nonces.consume_of_false hrefused]
      exact h.unmoved (fun _ he => by cases he) (fun _ he => by cases he) fun _ he => by cases he
  | look text =>
    exact h.unmoved (fun _ he => by cases he) (fun _ he => by cases he) fun _ he => by cases he
  | release guard =>
    rw [happening, Vault.step]
    split
    · next old hold => exact h.void hold
    · exact h.unmoved (fun _ he => by cases he) (fun _ he => by cases he) fun _ he => by cases he

/-- A run in which no nonce is minted twice leaves the register as its `trace` says. -/
theorem Sound.run {past : List Happening} {v : Vault} (h : v.Sound past) {events : List Event}
    (hfresh : ((past ++ v.trace events).filterMap Happening.minted?).Nodup) :
    (v.run events).Sound (past ++ v.trace events) := by
  induction events generalizing past v with
  | nil =>
    rw [trace, List.append_nil]
    exact h
  | cons e events ih =>
    rw [trace, List.append_cons] at hfresh ⊢
    refine ih (h.step e ?_) hfresh
    intro nonce hnonce hpast
    rw [hnonce, List.filterMap_append, List.filterMap_append] at hfresh
    have hbefore := (List.nodup_append.1 (List.nodup_append.1 hfresh).1).2.2
    refine hbefore nonce ?_ nonce (by simp [Happening.minted?]) rfl
    exact List.mem_filterMap.2 ⟨.minted nonce, hpast, rfl⟩

/-! ## What a run shows -/

/-- An event that is not about a nonce leaves it live or not as it was. -/
theorem contains_step_of_ne (v : Vault) (e : Event) {nonce : String}
    (h : (v.happening e).subject? ≠ some nonce) :
    (v.step e).nonces.contains nonce = v.nonces.contains nonce := by
  rw [Bool.eq_iff_iff]
  cases e with
  | mint e =>
    have hne : nonce ≠ (v.nonces.mint e).1 := fun he => h (congrArg some he.symm)
    rw [show (v.step (.mint e)).nonces = (v.nonces.mint e).2.1 from rfl, Nonces.contains_mint]
    exact or_iff_right hne
  | consume text =>
    show (v.nonces.consume text).2.contains nonce = true ↔ _
    rw [happening] at h
    split at h
    · next hspent =>
      have hne : nonce ≠ text := fun he => h (congrArg some he.symm)
      rw [Nonces.consume_of_true hspent, Nonces.contains_remove]
      exact and_iff_right hne
    · next hrefused =>
      rw [Nonces.consume_of_false hrefused]
  | look text => exact Iff.rfl
  | release guard =>
    rw [happening] at h
    rw [step]
    split at h
    · next old hold =>
      have hne : nonce ≠ old := fun he => h (congrArg some he.symm)
      show (v.nonces.remove old).contains nonce = true ↔ _
      rw [Nonces.contains_remove]
      exact and_iff_right hne
    · exact Iff.rfl

/-- **Single use.**  Let anybody mint, show, look for and give up nonces in any order (`Event`), and
let no nonce be drawn twice.

* A nonce is live exactly when it was minted, was not spent, and its guard is held (`Guarded`),
  which is until the guard is given up.
* Whenever a nonce is spent, it was not spent before and its guard was not given up.
* The empty text, and any other that is no live nonce, is refused and changes nothing.
* What is done to one nonce never changes whether another is live.
* Once nobody holds a guard, no nonce is live. -/
theorem single_use {events : List Event}
    (hfresh : ((opened.trace events).filterMap Happening.minted?).Nodup) :
    let v := opened.run events
    let past := opened.trace events
    (∀ nonce, v.nonces.contains nonce = true ↔
        .minted nonce ∈ past ∧ .spent nonce ∉ past ∧ v.Guarded nonce) ∧
      (∀ nonce, v.Guarded nonce ↔ .minted nonce ∈ past ∧ .voided nonce ∉ past) ∧
      past.Pairwise Allows ∧
      (∀ text, text = "" ∨ v.nonces.contains text = false →
        v.nonces.consume text = (false, v.nonces)) ∧
      (∀ e nonce, (v.happening e).subject? ≠ some nonce →
        (v.step e).nonces.contains nonce = v.nonces.contains nonce) ∧
      ((∀ nonce, ¬ v.Guarded nonce) → v.nonces.count = 0) := by
  have h : (opened.run events).Sound (opened.trace events) := sound_opened.run hfresh
  refine ⟨?_, h.guarded, h.ordered, fun text => Nonces.consume_of_not_live,
    fun e nonce => contains_step_of_ne _ e, ?_⟩
  · intro nonce
    rw [h.live]
    constructor
    · exact fun ⟨hg, hs⟩ => ⟨((h.guarded nonce).1 hg).1, hs, hg⟩
    · exact fun ⟨_, hs, hg⟩ => ⟨hg, hs⟩
  · intro hnone
    rw [Nonces.count_eq_zero_iff]
    intro nonce
    rw [← Bool.not_eq_true, h.live]
    exact fun hlive => hnone nonce hlive.1

def monotonous (b : UInt8) : Entropy := ⟨fun _ => b, 0⟩

/-- Two local connections and their requests: the first nonce is shown twice before its guard is
given up, the second only afterwards. -/
def twoConnections : List Event :=
  let first := (Nonces.empty.mint (monotonous 1)).1
  let second := (Nonces.empty.mint (monotonous 2)).1
  [.mint (monotonous 1), .mint (monotonous 2), .consume first, .consume "", .consume first,
    .release 0, .look second, .release 1, .consume second]

/-- Of these, the first showing of the first nonce spends it, and nothing else is spent. -/
theorem single_use_twoConnections :
    let first := (Nonces.empty.mint (monotonous 1)).1
    let second := (Nonces.empty.mint (monotonous 2)).1
    opened.trace twoConnections =
        [.minted first, .minted second, .spent first, .refused "", .refused first, .voided first,
          .seen second true, .voided second, .refused second] ∧
      (opened.run twoConnections).nonces.contains first = false ∧
      (opened.run twoConnections).nonces.count = 0 := by
  have htrace : opened.trace twoConnections =
      [.minted (Nonces.empty.mint (monotonous 1)).1, .minted (Nonces.empty.mint (monotonous 2)).1,
        .spent (Nonces.empty.mint (monotonous 1)).1, .refused "",
        .refused (Nonces.empty.mint (monotonous 1)).1, .voided (Nonces.empty.mint (monotonous 1)).1,
        .seen (Nonces.empty.mint (monotonous 2)).1 true,
        .voided (Nonces.empty.mint (monotonous 2)).1,
        .refused (Nonces.empty.mint (monotonous 2)).1] := by
    decide +kernel
  have hfresh : ((opened.trace twoConnections).filterMap Happening.minted?).Nodup := by
    rw [htrace]
    decide +kernel
  obtain ⟨hlive, hguarded, -, -, -, hnone⟩ := single_use hfresh
  refine ⟨htrace, ?_, hnone fun nonce hg => ?_⟩
  · rw [← Bool.not_eq_true, hlive, htrace]
    simp
  · obtain ⟨hminted, hvoided⟩ := (hguarded nonce).1 hg
    rw [htrace] at hminted hvoided
    simp only [List.mem_cons, Happening.minted.injEq, reduceCtorEq, or_false,
      List.not_mem_nil] at hminted
    rcases hminted with rfl | rfl <;> simp at hvoided

end Vault
end Coursework
