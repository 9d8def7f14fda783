import Coursework.Proofs.Store.Seeding

/-!
# A store that is filled again

What a seed has written once it can write again under any salts, for its items are in order and all
that they lean on is there (`Seed.writeItems_of_present`).  The second run puts every value in place
of the same value, so that no question to the store is answered in another way, but for salts and
the digests behind them (`Seed.answersAlike_of_holds`); the passwords are the same.
-/

set_option autoImplicit false

namespace Coursework

/-- Accounts that take the same password: one and the same, or under two salts (`Account.Has`). -/
def Account.SamePassword (a b : Account) : Prop :=
  (a.salt = b.salt ∧ a.passwordHash = b.passwordHash) ∨ ∃ pass, a.Has pass ∧ b.Has pass

namespace Store

/-- Stores with the same courses, assignments and accounts, in the same order, but for what is in
them. -/
structure SameKeys (s t : Store) : Prop where
  courses : s.courses.keys = t.courses.keys
  assignments : s.assignments.keys = t.assignments.keys
  accounts : s.accounts.keys = t.accounts.keys

theorem SameKeys.refl (s : Store) : s.SameKeys s :=
  ⟨rfl, rfl, rfl⟩

theorem SameKeys.trans {s t u : Store} (h : s.SameKeys t) (h' : t.SameKeys u) : s.SameKeys u :=
  ⟨h.courses.trans h'.courses, h.assignments.trans h'.assignments, h.accounts.trans h'.accounts⟩

/-- Stores that answer every question alike, but for the salts and digests in accounts, which
`Account.withoutPassword` leaves out.  The passwords behind them are the same. -/
structure AnswersAlike (s t : Store) : Prop where
  course : ∀ id, s.course? id = t.course? id
  assignment : ∀ course id, s.assignment? course id = t.assignment? course id
  assignmentsOf : ∀ course, s.assignmentsOf course = t.assignmentsOf course
  account : ∀ email, (s.account? email).map Account.withoutPassword =
    (t.account? email).map Account.withoutPassword
  password : ∀ email a b, s.account? email = some a → t.account? email = some b → a.SamePassword b
  accountList : s.accountList.map Account.withoutPassword =
    t.accountList.map Account.withoutPassword
  roster : ∀ course, s.roster course = t.roster course
  submission : ∀ key short, s.submission? key short = t.submission? key short
  latest : ∀ key, s.latest? key = t.latest? key
  history : ∀ key, s.history key = t.history key

/-! ## Answers that do not tell accounts apart -/

section

variable {s t : Store} (hkeys : s.accounts.keys = t.accounts.keys)
  (haccount : ∀ email, (s.account? email).map Account.withoutPassword =
    (t.account? email).map Account.withoutPassword)
include hkeys haccount

theorem map_withoutPassword_accounts :
    (s.accounts.entries.map Prod.snd).map Account.withoutPassword =
      (t.accounts.entries.map Prod.snd).map Account.withoutPassword := by
  rw [List.map_map, List.map_map]
  exact Table.map_entries_congr (fun _ a => a.withoutPassword) hkeys haccount

theorem accountList_congr :
    s.accountList.map Account.withoutPassword = t.accountList.map Account.withoutPassword := by
  have hsort : ∀ accounts : List Account,
      (accounts.mergeSort fun a b => decide (a.email ≤ b.email)).map Account.withoutPassword =
        (accounts.map Account.withoutPassword).mergeSort fun a b => decide (a.email ≤ b.email) :=
    fun _ => List.map_mergeSort fun _ _ _ _ => rfl
  rw [accountList, accountList, hsort, hsort, map_withoutPassword_accounts hkeys haccount]

theorem roster_congr (hcourses : s.courses = t.courses) (course : String) :
    s.roster course = t.roster course := by
  -- the entry of an account on a roster does not show its password
  have hentry : ∀ accounts : List Account,
      (accounts.map Account.withoutPassword).filterMap (listedAs? course) =
        accounts.filterMap (listedAs? course) := fun _ => List.filterMap_map
  rw [roster, roster, hcourses, ← hentry, ← hentry (t.accounts.entries.map _),
    map_withoutPassword_accounts hkeys haccount]

end
end Store

namespace Seed

open Store

/-! ## What is written can be written again -/

/-- The place of an item in a store is taken, and what the item leans on is there. -/
def Item.Present (s : Store) : Item → Prop
  | .course c => c.id ∈ s.courses.keys
  | .assignment owner a => owner ∈ s.courses.keys ∧ (owner, a.id) ∈ s.assignments.keys
  | .user u => u.email ∈ s.accounts.keys

def Item.Sound (i : Item) : Prop :=
  ∃ salt s t, i.write salt s = .ok t

theorem Item.Present.congr {i : Item} {s t : Store} (h : i.Present s) (hkeys : s.SameKeys t) :
    i.Present t := by
  rcases i with c | ⟨owner, a⟩ | u
  · rw [Present] at h ⊢
    rwa [← hkeys.courses]
  · rw [Present] at h ⊢
    rwa [← hkeys.courses, ← hkeys.assignments]
  · rw [Present] at h ⊢
    rwa [← hkeys.accounts]

theorem present_of_write {i : Item} {salt : String} {s t : Store} (h : i.write salt s = .ok t) :
    i.Present t := by
  rcases write_cases h with ⟨c, rfl, hput⟩ | ⟨owner, a, rfl, -, hput⟩ |
    ⟨u, a, rfl, -, haccount, hput⟩
  · obtain ⟨-, rfl⟩ := putCourse_eq_ok hput
    exact (Table.mem_keys_insert ..).2 (.inl rfl)
  · obtain ⟨-, hcourse, rfl⟩ := putAssignment_eq_ok hput
    exact ⟨(Table.mem_keys_iff ..).2 hcourse, (Table.mem_keys_insert ..).2 (.inl rfl)⟩
  · obtain ⟨-, rfl⟩ := putAccount_eq_ok hput
    exact (Table.mem_keys_insert ..).2 (.inl (email_account haccount).symm)

theorem Item.Present.write {i j : Item} {salt : String} {s t : Store} (h : i.Present s)
    (hwrite : j.write salt s = .ok t) : i.Present t := by
  have hkeys : (∀ k ∈ s.courses.keys, k ∈ t.courses.keys) ∧
      (∀ k ∈ s.assignments.keys, k ∈ t.assignments.keys) ∧
      ∀ k ∈ s.accounts.keys, k ∈ t.accounts.keys := by
    rcases write_cases hwrite with ⟨c, -, hput⟩ | ⟨owner, a, -, -, hput⟩ | ⟨u, a, -, -, -, hput⟩
    · obtain ⟨-, rfl⟩ := putCourse_eq_ok hput
      exact ⟨fun _ hk => (Table.mem_keys_insert ..).2 (.inr hk), fun _ => id, fun _ => id⟩
    · obtain ⟨-, -, rfl⟩ := putAssignment_eq_ok hput
      exact ⟨fun _ => id, fun _ hk => (Table.mem_keys_insert ..).2 (.inr hk), fun _ => id⟩
    · obtain ⟨-, rfl⟩ := putAccount_eq_ok hput
      exact ⟨fun _ => id, fun _ => id, fun _ hk => (Table.mem_keys_insert ..).2 (.inr hk)⟩
  obtain ⟨hcourses, hassignments, haccounts⟩ := hkeys
  rcases i with c | ⟨owner, a⟩ | u
  · exact hcourses _ h
  · exact ⟨hcourses _ h.1, hassignments _ h.2⟩
  · exact haccounts _ h

theorem exists_account {u : SeedUser} {salt : String} {a : Account} (h : u.account salt = .ok a)
    (salt' : String) : ∃ b, u.account salt' = .ok b := by
  rw [SeedUser.account] at h ⊢
  rcases hpass : u.pass with _ | pass
  · exact ⟨_, rfl⟩
  · rw [hpass] at h
    dsimp only at h ⊢
    rw [Account.setPassword] at h ⊢
    by_cases hdigest : Digest.isSha256Hex pass = true
    · rw [if_pos hdigest]
      exact ⟨_, rfl⟩
    · rw [if_neg hdigest] at h
      cases h

/-- An item in order is written wherever its place is taken (`Item.Present`), and takes no other
place. -/
theorem write_of_present {i : Item} (hsound : i.Sound) {u : Store} (h : i.Present u)
    (salt : String) :
    ∃ v, i.write salt u = .ok v ∧ u.SameKeys v := by
  obtain ⟨salt', s, t, hwrite⟩ := hsound
  rcases write_cases hwrite with ⟨c, rfl, hput⟩ | ⟨owner, a, rfl, howner, hput⟩ |
      ⟨user, a, rfl, hroot, haccount, hput⟩
  · obtain ⟨hvalid, -⟩ := putCourse_eq_ok hput
    refine ⟨{ u with courses := u.courses.insert c.id c }, ?_, ?_⟩
    · rw [Item.write, putCourse, hvalid]
    · exact ⟨(Table.keys_insert_of_mem h _).symm, rfl, rfl⟩
  · obtain ⟨hvalid, -, -⟩ := putAssignment_eq_ok hput
    refine ⟨{ u with assignments :=
        u.assignments.insert (owner, a.id) { a with courseId := owner } },
      ?_, ?_⟩
    · rw [write_eq, Item.asks, if_pos howner]
      dsimp only [Write.apply]
      rw [putAssignment, hvalid]
      dsimp only
      rw [if_pos ((Table.contains_iff_mem_keys ..).2 h.1)]
    · exact ⟨rfl, (Table.keys_insert_of_mem h.2 _).symm, rfl⟩
  · obtain ⟨hblank, -⟩ := putAccount_eq_ok hput
    obtain ⟨b, hb⟩ := exists_account haccount salt
    have hemail : b.email = user.email := email_account hb
    refine ⟨{ u with accounts := u.accounts.insert b.email b }, ?_, ?_⟩
    · rw [write_eq, Item.asks, if_neg hroot, hb]
      dsimp only [Except.map, Write.apply]
      rw [putAccount, if_neg]
      rwa [hemail, ← email_account haccount]
    · rw [hemail]
      exact ⟨rfl, rfl, (Table.keys_insert_of_mem h _).symm⟩

theorem present_writeItems {s : Store} {e : Entropy} {items : List Item}
    (h : (writeItems s e items).result = .ok ()) :
    ∀ i ∈ items, i.Sound ∧ i.Present (writeItems s e items).store := by
  induction items generalizing s e with
  | nil => exact fun _ hi => absurd hi List.not_mem_nil
  | cons i rest ih =>
    rw [writeItems] at h ⊢
    dsimp only at h ⊢
    split at h
    · cases h
    · next t ht =>
      refine List.forall_mem_cons.2 ⟨⟨⟨_, s, t, ht⟩, ?_⟩, ih h⟩
      exact writeItems_induction (P := i.Present)
        (fun _ _ _ _ _ hwrite hpresent => hpresent.write hwrite) (present_of_write ht) _

/-- Items in order that have their places go through, and take no other places. -/
theorem writeItems_of_present {items : List Item} {u : Store}
    (h : ∀ i ∈ items, i.Sound ∧ i.Present u) (e : Entropy) :
    (writeItems u e items).result = .ok () ∧ u.SameKeys (writeItems u e items).store := by
  induction items generalizing u e with
  | nil => exact ⟨rfl, .refl u⟩
  | cons i rest ih =>
    obtain ⟨hfirst, hrest⟩ := List.forall_mem_cons.1 h
    obtain ⟨v, hwrite, hkeys⟩ := write_of_present hfirst.1 hfirst.2 (e.drawHex Account.saltSize).1
    obtain ⟨hok, hkeys'⟩ := ih (fun j hj => ⟨(hrest j hj).1, (hrest j hj).2.congr hkeys⟩)
      (e.drawHex Account.saltSize).2
    rw [writeItems]
    dsimp only
    rw [hwrite]
    exact ⟨hok, hkeys.trans hkeys'⟩

/-! ## The second run -/

theorem samePassword_of_describes {u : SeedUser} {a b : Account} (ha : u.Describes a)
    (hb : u.Describes b) : a.SamePassword b := by
  rcases hpass : u.pass with _ | pass
  · exact .inl ⟨(ha.closed hpass).1.trans (hb.closed hpass).1.symm,
      (ha.closed hpass).2.trans (hb.closed hpass).2.symm⟩
  · exact .inr ⟨pass, ha.has pass hpass, hb.has pass hpass⟩

/-- Where a seed was before, it finds everything as it leaves it (`Holds`). -/
theorem answersAlike_of_holds {seed : Seed} {s t u : Store} (h : seed.Holds s t)
    (hagain : seed.Holds t u) (hkeys : t.SameKeys u) : t.AnswersAlike u := by
  have hcourses : t.courses = u.courses := Table.ext_find? hkeys.courses fun id => by
    have hcourse := hagain.course id
    rw [h.course id, ← Option.or_assoc, Option.or_self, ← h.course id] at hcourse
    exact hcourse.symm
  have hassignments : t.assignments = u.assignments :=
    Table.ext_find? hkeys.assignments fun ⟨course, id⟩ => by
      have hassignment := hagain.assignment course id
      rw [h.assignment course id, ← Option.or_assoc, Option.or_self, ← h.assignment course id]
        at hassignment
      exact hassignment.symm
  have haccount : ∀ email, (t.account? email).map Account.withoutPassword =
      (u.account? email).map Account.withoutPassword := by
    intro email
    rcases hu : seed.user? email with _ | user
    · rw [hagain.others email hu]
    · obtain ⟨a, ha, hdescribes⟩ := h.account email user hu
      obtain ⟨b, hb, hdescribes'⟩ := hagain.account email user hu
      rw [ha, hb, Option.map_some, Option.map_some, hdescribes.shown, hdescribes'.shown]
  have hsubmissionsOf : ∀ key, t.submissionsOf key = u.submissionsOf key := fun key => by
    rw [submissionsOf, submissionsOf, hagain.submissions]
  refine ⟨fun id => ?_, fun course id => ?_, fun course => ?_, haccount, fun email a b ha hb => ?_,
    accountList_congr hkeys.accounts haccount, roster_congr hkeys.accounts haccount hcourses,
    fun key short => ?_, fun key => ?_, fun key => ?_⟩
  · rw [Store.course?, Store.course?, hcourses]
  · rw [Store.assignment?, Store.assignment?, hassignments]
  · rw [assignmentsOf, assignmentsOf, hassignments]
  · rcases hu : seed.user? email with _ | user
    · have hsame := hagain.others email hu
      rw [ha, hb] at hsame
      cases hsame
      exact .inl ⟨rfl, rfl⟩
    · obtain ⟨a', ha', hdescribes⟩ := h.account email user hu
      obtain ⟨b', hb', hdescribes'⟩ := hagain.account email user hu
      cases ha.symm.trans ha'
      cases hb.symm.trans hb'
      exact samePassword_of_describes hdescribes hdescribes'
  · rw [submission?, submission?, hsubmissionsOf]
  · rw [latest?, latest?, hsubmissionsOf]
  · rw [history, history, hsubmissionsOf]

/-- **Seeding is an ordered prefix.**  A store is filled by the writes of the items of a seed in the
order of its loops, up to the first that is refused (`StopsAt`).  If none is, then the store holds
what the seed mentions last and else what it held before (`Holds`), and the same seed goes through
once more, whatever the salts, with no answer changed but salts and digests (`AnswersAlike`), behind
which the passwords are the same. -/
theorem seeding_in_order (seed : Seed) (s : Store) (e : Entropy) :
    seed.apply s e = seed.inLoops s e ∧
    (∃ front back, seed.items = front ++ back ∧ StopsAt s e front back (seed.apply s e)) ∧
    ((seed.apply s e).result = .ok () →
      seed.Holds s (seed.apply s e).store ∧
      ∀ e', (seed.apply (seed.apply s e).store e').result = .ok () ∧
        (seed.apply s e).store.AnswersAlike (seed.apply (seed.apply s e).store e').store) := by
  refine ⟨apply_eq_inLoops seed s e, stopsAt_writeItems s e seed.items, fun h => ?_⟩
  have hholds := holds_apply h
  refine ⟨hholds, fun e' => ?_⟩
  obtain ⟨hagain, hkeys⟩ := writeItems_of_present (present_writeItems h) e'
  exact ⟨hagain, answersAlike_of_holds hholds (holds_apply hagain) hkeys⟩

theorem seeding_in_order_small :
    (small.apply Store.empty Entropy.foreseeable).result = .ok () ∧
      small.Holds Store.empty (small.apply Store.empty Entropy.foreseeable).store :=
  have hok : (small.apply Store.empty Entropy.foreseeable).result = .ok () := rfl
  ⟨hok, ((seeding_in_order small Store.empty Entropy.foreseeable).2.2 hok).1⟩

end Seed
end Coursework
