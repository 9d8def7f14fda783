import Coursework.Proofs.Request.Stages
import Coursework.Proofs.Store.Writes
import Coursework.Proofs.Submission

/-!
# Which course and which assignment a request is about

Clients may write an identifier in capitals and with blanks around it (`WrittenAs`), and the look-up
takes both away (`Request.normalId`).  What is in the store is kept under its own identifier and was
taken in only if that is proper, so that nothing is lost: a text leads to an identifier exactly if
it is written as it (`Request.normalId_eq_iff`), and each course and assignment is found by whatever
is written as its identifiers (`Request.resolve_of_written`).

In the other direction, a request that is materialized has what its context says
(`Request.InContext`).
-/

set_option autoImplicit false

namespace Coursework

open Json
open SubmissionId (isBlank_of_isIdChar ne_empty_of_validateId)

/-! ## Writing an identifier -/

/-- A text is an identifier but for the case of ASCII letters and for blanks around it. -/
def WrittenAs (text id : String) : Prop :=
  ∃ front core back, text.toList = front ++ core ++ back ∧
    (∀ c ∈ front, Text.isBlank c = true) ∧ (∀ c ∈ back, Text.isBlank c = true) ∧
    core.map Char.toLower = id.toList.map Char.toLower

theorem toLower_cases (c : Char) : 65 ≤ c.toNat ∧ c.toNat ≤ 90 ∨ c.toLower = c := by
  by_cases h : c.val ≥ 'A'.val ∧ c.val ≤ 'Z'.val
  · exact .inl h
  · exact .inr (dif_neg h)

theorem toLower_of_isIdChar {c : Char} (h : isIdChar c = true) : c.toLower = c := by
  refine (toLower_cases c).resolve_left fun hcapital => ?_
  simp only [isIdChar, Bool.or_eq_true, Bool.and_eq_true, decide_eq_true_eq, beq_iff_eq] at h
  rcases h with ((hrange | rfl) | rfl) | rfl
  · omega
  all_goals exact absurd hcapital (by decide)

theorem isBlank_of_toLower {c : Char} (h : isIdChar c.toLower = true) : Text.isBlank c = false := by
  rcases toLower_cases c with hcapital | hsame
  · exact Text.isBlank_of_printable (by omega)
  · rw [hsame] at h
    exact isBlank_of_isIdChar h

theorem map_toLower_of_validateId {kind id : String} (h : validateId kind id = .ok ()) :
    id.toList.map Char.toLower = id.toList := by
  rw [List.map_congr_left fun c hc => toLower_of_isIdChar (isIdChar_of_validateId h c hc),
    List.map_id']

namespace Request

variable {R : Type}

theorem toList_normalId (text : String) :
    (normalId text).toList = (Text.trimChars text.toList).map Char.toLower := by
  rw [normalId, Text.lower, String.toList_ofList, Text.trim, String.toList_ofList]

/-- A text leads to a proper identifier (`normalId`) exactly if it is `WrittenAs` that
identifier. -/
theorem normalId_eq_iff {kind id : String} (hid : validateId kind id = .ok ()) (text : String) :
    normalId text = id ↔ WrittenAs text id := by
  rw [← String.toList_inj, toList_normalId, WrittenAs, map_toLower_of_validateId hid]
  constructor
  · intro h
    obtain ⟨front, back, htext, hfront, hback⟩ := Text.exists_of_trimChars text.toList
    exact ⟨front, _, back, htext, hfront, hback, h⟩
  · rintro ⟨front, core, back, htext, hfront, hback, hcore⟩
    have hcharacters : ∀ c ∈ core, Text.isBlank c = false := fun c hc =>
      isBlank_of_toLower (isIdChar_of_validateId hid _ (hcore ▸ List.mem_map_of_mem hc))
    rw [htext, Text.trimChars_append hfront hback (Text.trimmed_of_forall hcharacters), hcore]

/-! ## Finding what is there -/

theorem findCourse_of_written {b : Backend} (hstore : b.store.Proper) (hup : .course ∉ b.down)
    {id : String} {c : Course} (hc : b.store.course? id = some c) {context : Context}
    (hwritten : WrittenAs context.courseId c.id) : findCourse b context = .ok c := by
  obtain rfl := hstore.course id c hc
  have hvalid : validateId "course" c.id = .ok () := hstore.validCourse _ c hc
  simp only [findCourse, (normalId_eq_iff hvalid _).2 hwritten,
    if_neg (ne_empty_of_validateId hvalid),
    Backend.course?, Backend.guarded, if_neg hup, hc]

theorem findAssignment_of_written {b : Backend} (hstore : b.store.Proper)
    (hup : .assignment ∉ b.down) {course id : String} {a : Assignment}
    (ha : b.store.assignment? course id = some a) {c : Course} (hcourse : a.courseId = c.id)
    {context : Context} (hwritten : WrittenAs context.assignmentId a.id) :
    findAssignment b context c = .ok a := by
  have hvalid := validateId_of_validate (hstore.validAssignment _ _ a ha)
  obtain ⟨rfl, rfl⟩ := hstore.assignment course id a ha
  rw [hcourse] at ha
  simp only [findAssignment, (normalId_eq_iff hvalid _).2 hwritten,
    if_neg (ne_empty_of_validateId hvalid), Backend.assignment?, Backend.guarded, if_neg hup, ha]

/-- A course and an assignment are found by whatever is written as their identifiers. -/
theorem resolve_of_written {b : Backend} (hstore : b.store.Proper) {schema : Schema}
    (hneeds : schema.needsCourse = true) (hup : .course ∉ b.down) {id : String} {c : Course}
    (hc : b.store.course? id = some c) {context : Context}
    (hwritten : WrittenAs context.courseId c.id) :
    (schema.needsAssignment = false → resolve schema context b = .ok (some c, none)) ∧
      ∀ course id a, schema.needsAssignment = true → .assignment ∉ b.down →
        b.store.assignment? course id = some a → a.courseId = c.id →
        WrittenAs context.assignmentId a.id → resolve schema context b = .ok (some c, some a) := by
  have hfound := findCourse_of_written hstore hup hc hwritten
  constructor
  · intro hnone
    simp only [resolve, hneeds, hfound, hnone, if_true, if_false, Bool.false_eq_true]
  · intro course id a hassignment hup' ha hcourse hwritten'
    have hfound' := findAssignment_of_written hstore hup' ha hcourse hwritten'
    simp only [resolve, hneeds, hfound, hassignment, hfound', if_true]

/-! ## What was found -/

theorem findAssignment_of_resolve {schema : Schema} {context : Context} {b : Backend}
    {course : Option Course} {assignment : Option Assignment}
    (h : resolve schema context b = .ok (course, assignment)) (hcourse : schema.needsCourse = true)
    (hneeds : schema.needsAssignment = true) :
    ∃ c a, findCourse b context = .ok c ∧ course = some c ∧ findAssignment b context c = .ok a ∧
      assignment = some a := by
  rw [resolve, if_pos hcourse] at h
  split at h
  · cases h
  · next c hc =>
    rw [if_pos hneeds] at h
    split at h
    · cases h
    · next a ha =>
      cases h
      exact ⟨c, a, hc, rfl, ha, rfl⟩

theorem checkPassword_of_authenticate {b : Backend} {nonces : Nonces} {context : Context}
    {course : Option Course} {i : Identity}
    (h : (authenticate b nonces context course).1 = .ok i) (hnonce : context.nonce = "") :
    i.viaNonce = false ∧ i.account.checkPassword context.userPass = true := by
  rw [authenticate, if_pos hnonce] at h
  rcases hcheck : checkCredentials b context with f | a
  · rw [hcheck] at h
    cases h
  · rw [hcheck] at h
    cases h
    refine ⟨rfl, ?_⟩
    simp only [checkCredentials] at hcheck
    split at hcheck
    · cases hcheck
    · split at hcheck
      · cases hcheck
      · cases hcheck
      · split at hcheck
        · next hpassword =>
          cases hcheck
          exact hpassword
        · cases hcheck

/-- A materialized request has what its context says, as far as its schema asks for it: the course
and the assignment that are kept under what it names, and a `sender` who, showing no nonce, is the
account with their email and knows its password.  Everybody has the `role` that their account has in
this very course. -/
structure InContext (schema : Schema) (context : Context) (s : Store) (m : Materialized R) :
    Prop where
  course : schema.needsCourse = true → ∃ c, m.course = some c ∧ s.course? c.id = some c ∧
    c.id = normalId context.courseId
  assignment : schema.needsCourse = true → schema.needsAssignment = true →
    ∃ c a, m.course = some c ∧ m.assignment = some a ∧ s.assignment? c.id a.id = some a ∧
      a.courseId = c.id ∧ a.id = normalId context.assignmentId
  sender : schema.needsUser = true → context.nonce = "" → ∃ i, m.identity = some i ∧
    i.viaNonce = false ∧ s.account? i.account.email = some i.account ∧
    i.account.email = Text.trim context.userEmail ∧
    i.account.checkPassword context.userPass = true
  role : schema.needsUser = true → schema.needsCourse = true → ∃ c i, m.course = some c ∧
    m.identity = some i ∧ i.courseRole = i.account.courseRole? c.id

theorem inContext_of_materialize {kind : RequestKind R} {raw : RawRequest} {s u : Server}
    {m : Materialized R} (hstore : s.backend.store.Proper)
    (h : materialize kind raw s = (.ok m, u)) :
    ∃ r context, decodeText? kind.decode raw.content = some (r, context) ∧
      InContext kind.schema context s.backend.store m := by
  obtain ⟨r, context, nonces, hdecode, -, hresolve, hadmit, -⟩ := materialize_eq_ok h
  refine ⟨r, context, hdecode, ⟨fun hcourse => ?_, fun hcourse hassignment => ?_,
    fun huser hnonce => ?_, fun huser hcourse => ?_⟩⟩
  · obtain ⟨c, hfind, hc⟩ := findCourse_of_resolve hresolve hcourse
    have hkept := course?_of_findCourse hfind
    have hid := hstore.course _ c hkept
    exact ⟨c, hc, hid ▸ hkept, hid⟩
  · obtain ⟨c, a, -, hc, hfind, ha⟩ := findAssignment_of_resolve hresolve hcourse hassignment
    have hkept := assignment?_of_findAssignment hfind
    obtain ⟨hin, hid⟩ := hstore.assignment _ _ a hkept
    exact ⟨c, a, hc, ha, hid ▸ hkept, hin, hid⟩
  · obtain ⟨i, hi, hauthenticate, -⟩ := admitSender_eq_ok hadmit huser
    have hidentified := congrArg Prod.fst hauthenticate
    have hkept := account?_of_authenticate hidentified hnonce
    have hemail := hstore.account _ _ hkept
    obtain ⟨hvia, hpassword⟩ := checkPassword_of_authenticate hidentified hnonce
    exact ⟨i, hi, hvia, hemail ▸ hkept, hemail, hpassword⟩
  · obtain ⟨c, -, hc⟩ := findCourse_of_resolve hresolve hcourse
    obtain ⟨i, hi, hauthenticate, -⟩ := admitSender_eq_ok hadmit huser
    have hrole := courseRole_of_authenticate (congrArg Prod.fst hauthenticate)
    rw [hc] at hrole
    exact ⟨c, i, hc, hi, hrole⟩

/-- **A context leads to all that is in the store, and to nothing else.**  Whatever was written to
an empty store:

* a course and an assignment of it are found by whatever is written as their identifiers
  (`WrittenAs`);
* a request that is materialized has the course, the assignment and the sender that its context
  names, and runs with the role that the sender has in this very course (`InContext`). -/
theorem context_resolves (ws : List Write) (down : List Operation) :
    (∀ schema context id c, schema.needsCourse = true → .course ∉ down →
      (Store.empty.performAll ws).course? id = some c → WrittenAs context.courseId c.id →
      (schema.needsAssignment = false →
        resolve schema context ⟨Store.empty.performAll ws, down⟩ = .ok (some c, none)) ∧
      ∀ course id a, schema.needsAssignment = true → .assignment ∉ down →
        (Store.empty.performAll ws).assignment? course id = some a → a.courseId = c.id →
        WrittenAs context.assignmentId a.id →
        resolve schema context ⟨Store.empty.performAll ws, down⟩ = .ok (some c, some a)) ∧
    ∀ (R : Type) (kind : RequestKind R) raw s m u,
      s.backend = ⟨Store.empty.performAll ws, down⟩ → materialize kind raw s = (.ok m, u) →
      ∃ r context, decodeText? kind.decode raw.content = some (r, context) ∧
        InContext kind.schema context (Store.empty.performAll ws) m := by
  have hstore := Store.proper_empty.performed ws
  constructor
  · intro schema context id c hneeds hup hc hwritten
    exact resolve_of_written (b := ⟨_, down⟩) hstore hneeds hup hc hwritten
  · intro R kind raw s m u hbackend h
    have hproper : s.backend.store.Proper := by rwa [hbackend]
    obtain ⟨r, context, hdecode, hin⟩ := inContext_of_materialize hproper h
    rw [hbackend] at hin
    exact ⟨r, context, hdecode, hin⟩

def homeworkWrites : List Write :=
  [.course ⟨"cs1", ""⟩, .assignment ⟨"hw1", "cs1", "", none, 10, none, none⟩]

/-- Both are found, though they are written in capitals and with blanks. -/
theorem context_resolves_capitals : ∃ c a, c.id = "cs1" ∧ a.id = "hw1" ∧
    WrittenAs "\tCS1 " "cs1" ∧ WrittenAs " Hw1" "hw1" ∧
    resolve (.build [.assignment]) ⟨"\tCS1 ", " Hw1", "", "", ""⟩
      ⟨Store.empty.performAll homeworkWrites, []⟩ = .ok (some c, some a) := by
  have hcourse : WrittenAs "\tCS1 " "cs1" :=
    ⟨['\t'], ['C', 'S', '1'], [' '], rfl, List.forall_mem_singleton.2 rfl,
      List.forall_mem_singleton.2 rfl, rfl⟩
  have hassignment : WrittenAs " Hw1" "hw1" :=
    ⟨[' '], ['H', 'w', '1'], [], rfl, List.forall_mem_singleton.2 rfl, List.forall_mem_nil _, rfl⟩
  obtain ⟨hfound, -⟩ := context_resolves homeworkWrites []
  obtain ⟨-, hresolve⟩ := hfound (.build [.assignment]) ⟨"\tCS1 ", " Hw1", "", "", ""⟩ "cs1"
    ⟨"cs1", ""⟩ rfl List.not_mem_nil rfl hcourse
  exact ⟨_, _, rfl, rfl, hcourse, hassignment,
    hresolve "cs1" "hw1" ⟨"hw1", "cs1", "", none, 10, none, none⟩ rfl List.not_mem_nil rfl rfl
      hassignment⟩

end Request
end Coursework
