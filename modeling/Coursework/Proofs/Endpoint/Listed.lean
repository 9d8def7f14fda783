import Coursework.Proofs.Request.Ignored
import Coursework.Proofs.Store.Writes
import Coursework.Proofs.Submit

/-!
# Who is listed

The roster of a course shows the accounts that are enrolled in it, with the role of the enrollment,
whatever role they have on the server (`Store.Lists`).  It comes out of a table without order and is
put in order by email twice, by the store and by the endpoint; since an account is kept under its
own email, no email comes twice.

The roster, like the files of a submission, is a field that the server fills in, under a name that
no request type and no context reads.  So what a client sends under this name goes unread.
-/

set_option autoImplicit false

namespace Coursework

open Json

namespace Store

variable {s : Store}

/-- Entries are the roster of a course: those of the accounts that are enrolled in it and of no
other, one for each, by increasing email. -/
structure Lists (s : Store) (course : String) (entries : List RosterEntry) : Prop where
  mem_iff : ∀ e, e ∈ entries ↔ ∃ a, s.account? e.email = some a ∧ a.name = e.name ∧
    a.courses.find? course = some e.role
  increasing : (entries.map RosterEntry.email).Pairwise (· < ·)

theorem listedAs?_eq_some_iff (course : String) (a : Account) (e : RosterEntry) :
    listedAs? course a = some e ↔
      a.email = e.email ∧ a.name = e.name ∧ a.courses.find? course = some e.role := by
  obtain ⟨email, name, role⟩ := e
  simp only [listedAs?, Option.map_eq_some_iff, RosterEntry.mk.injEq]
  constructor
  · rintro ⟨held, hheld, rfl, rfl, rfl⟩
    exact ⟨rfl, rfl, hheld⟩
  · rintro ⟨rfl, rfl, hheld⟩
    exact ⟨role, hheld, rfl, rfl, rfl⟩

theorem Keyed.nodup_emails (h : s.Keyed) :
    (s.accounts.entries.map fun e => e.2.email).Nodup := by
  have hkeys : (s.accounts.entries.map fun e => e.2.email) = s.accounts.entries.map Prod.fst :=
    List.map_congr_left fun e he => h.account e.1 e.2 ((s.accounts.mem_entries_iff e.1 e.2).1 he)
  rw [hkeys]
  exact s.accounts.nodup

theorem mem_listed_iff (h : s.Keyed) (course : String) (e : RosterEntry) :
    e ∈ (s.accounts.entries.map Prod.snd).filterMap (listedAs? course) ↔
      ∃ a, s.account? e.email = some a ∧ a.name = e.name ∧
        a.courses.find? course = some e.role := by
  simp only [List.mem_filterMap, List.mem_map, listedAs?_eq_some_iff]
  constructor
  · rintro ⟨a, ⟨⟨email, _⟩, hmem, rfl⟩, hemail, hname, hrole⟩
    have hfind := (s.accounts.mem_entries_iff email _).1 hmem
    rw [← hemail, h.account _ _ hfind]
    exact ⟨_, hfind, hname, hrole⟩
  · rintro ⟨a, hfind, hname, hrole⟩
    exact ⟨a, ⟨(e.email, a), (s.accounts.mem_entries_iff _ _).2 hfind, rfl⟩,
      h.account _ _ hfind, hname,
      hrole⟩

theorem nodup_listed (h : s.Keyed) (course : String) :
    (((s.accounts.entries.map Prod.snd).filterMap (listedAs? course)).map
      RosterEntry.email).Nodup := by
  -- The entries come from accounts that have their emails, so none is listed twice.
  have hemails := h.nodup_emails
  rw [List.nodup_iff_pairwise_ne, List.pairwise_map] at hemails ⊢
  rw [List.pairwise_filterMap, List.pairwise_map]
  refine hemails.imp fun hne e he e' he' => ?_
  rw [← ((listedAs?_eq_some_iff ..).1 he).1, ← ((listedAs?_eq_some_iff ..).1 he').1]
  exact hne

/-- To put a roster in order once more, as `listUsers` does, changes nothing about who is on it. -/
theorem Lists.mergeSort {course : String} {entries : List RosterEntry}
    (h : s.Lists course entries) :
    s.Lists course (entries.mergeSort fun a b => decide (a.email ≤ b.email)) where
  mem_iff e := List.mem_mergeSort.trans (h.mem_iff e)
  increasing := increasing_mergeSort (h.increasing.imp String.ne_of_lt)

/-- **A roster is exact**: what `roster` answers is all that `Lists` asks for. -/
theorem lists_roster (h : s.Keyed) {course : String} {entries : List RosterEntry}
    (hroster : s.roster course = .ok entries) : s.Lists course entries := by
  rw [roster] at hroster
  split at hroster
  · obtain rfl := Except.ok.inj hroster
    exact ⟨fun e => List.mem_mergeSort.trans (mem_listed_iff h course e),
      increasing_mergeSort (nodup_listed h course)⟩
  · cases hroster

end Store

namespace Endpoint

/-! ## What is filled in -/

theorem complete_rosterKind {files : List Upload} {r : List RosterEntry} {course : Option Course}
    {assignment : Option Assignment} {identity : Option Identity} {s u : Server}
    {m : Materialized (List RosterEntry)}
    (h : Request.complete rosterKind files r course assignment identity s = (.ok m, u)) :
    ∃ c, course = some c ∧ s.backend.roster c.id = .ok m.request := by
  rw [Request.complete_of_field rfl] at h
  rcases hvalue : Request.fieldValue s.backend s.uploadRoot course files s.disk
      ⟨"users", .roster, true⟩ with ⟨f | value, d⟩
  · rw [hvalue] at h
    cases h
  obtain ⟨-, -, c, entries, hc, hroster, rfl⟩ | ⟨hkind, -⟩ := Request.fieldValue_eq_ok hvalue
  · rw [hvalue] at h
    cases h
    exact ⟨c, hc, hroster⟩
  · cases hkind

theorem canonical_toJson (e : RosterEntry) : e.toJson.canonical = e.toJson := by
  have hkeys : ["email", "name", "role"].Pairwise (· < ·) := by decide +kernel
  simp only [RosterEntry.toJson, CourseRole.toJson, Value.canonical, Value.canonicalMembers,
    Value.canonical_optional_string]
  rw [Value.ofMembers, Value.sortMembers_of_increase]
  exact List.pairwise_map.1 hkeys

theorem canonical_listUsers (m : Materialized (List RosterEntry)) :
    (listUsers m).canonical = listUsers m := by
  have hitems : ∀ entries : List RosterEntry,
      Value.canonicalItems (entries.map RosterEntry.toJson) = entries.map RosterEntry.toJson := by
    intro entries
    induction entries with
    | nil => rfl
    | cons e rest ih => rw [List.map_cons, Value.canonicalItems, canonical_toJson, ih]
  simp only [listUsers, Value.canonical, Value.canonicalMembers, hitems]
  rfl

/-- A roster that is shown is that of the course that the request names. -/
theorem lists_of_call {raw : RawRequest} {s u : Server} {v : Value} (hkeyed : s.backend.store.Keyed)
    (h : rosterRoute.call raw s = (.content v, u)) :
    ∃ r context c entries, decodeText? rosterKind.decode raw.content = some (r, context) ∧
      Request.findCourse s.backend context = .ok c ∧ s.backend.store.Lists c.id entries ∧
      v = .object [("users", .array (entries.map RosterEntry.toJson))] := by
  simp only [rosterRoute, Route.of, Route.run] at h
  rcases hm : Request.materialize rosterKind raw s with ⟨f | m, t⟩
  · rw [hm] at h
    cases h
  rw [hm] at h
  obtain ⟨hv, -⟩ := Prod.mk.inj h
  obtain ⟨r, context, left, hdecode, -, hresolve, -, hcomplete⟩ := Request.materialize_eq_ok hm
  obtain ⟨c, hfind, hc⟩ := Request.findCourse_of_resolve hresolve rfl
  obtain ⟨d, hd, hroster⟩ := complete_rosterKind hcomplete
  obtain rfl : c = d := Option.some.inj (hc.symm.trans hd)
  refine ⟨r, context, c, _, hdecode, hfind,
    (Store.lists_roster hkeyed (Backend.guarded_eq_ok hroster)).mergeSort, ?_⟩
  rw [← Reply.content.inj hv, canonical_listUsers]
  rfl

/-! ## What goes unread -/

theorem ignores_rosterKind : rosterKind.Ignores "users" :=
  ⟨[], _, rfl, Decode.byNames_const _ _, by decide⟩

theorem ignores_submitKind : submitKind.Ignores "files" := by
  refine ⟨["message", "allow-late"], _, rfl, fun f g h => ?_, by decide⟩
  simp only [Decode.orElse_congr (h "message" (by decide)),
    Decode.orElse_congr (h "allow-late" (by decide))]

/-- **The roster is exact, and comes from the server alone.**

* Whatever was written to the store, a request for a roster that is granted shows who is enrolled in
  the course that it names: each account of the store that is, once, with the role of the
  enrollment, by increasing email (`Store.Lists`).
* Whatever a request for a roster has under `users`, and a submission under `files`, it comes to the
  same (`Disregards`): if two texts hold objects with the same other members, in which these values
  can be read, then both are read as the same request, which is materialized and answered alike; or
  neither is, and each is refused with what the reader says of it. -/
theorem roster_exact :
    (∀ (ws : List Write) (s : Server), s.backend.store = Store.empty.performAll ws →
      ∀ raw v u, rosterRoute.call raw s = (.content v, u) →
        ∃ r context c entries, decodeText? rosterKind.decode raw.content = some (r, context) ∧
          Request.findCourse s.backend context = .ok c ∧ s.backend.store.Lists c.id entries ∧
          v = .object [("users", .array (entries.map RosterEntry.toJson))]) ∧
    rosterKind.Disregards rosterRoute "users" ∧ submitKind.Disregards submitRoute "files" := by
  refine ⟨fun ws s hs raw v u h => lists_of_call ?_ h, ignores_rosterKind.disregards,
    ignores_submitKind.disregards⟩
  rw [hs]
  exact (Store.proper_empty.performed ws).toKeyed

def studentAdmin : Account :=
  { (Account.fresh "kim").enroll "cs1" .student with role := .admin }

/-- A server that has a course and `studentAdmin` in it, and a nonce for a trusted local request. -/
def enrolledServer : Server :=
  { Server.start (Store.empty.performAll [.course ⟨"cs1", ""⟩, .account studentAdmin]) ⟨0, 0⟩
      .foreseeable (.generous 0) .empty "/uploads" with nonces := ⟨["n"]⟩ }

def courseText (between : String) : String :=
  "\x7b\"course-id\": \"cs1\", " ++ between ++ "\"root-user-nonce\": \"n\"\x7d"

/-- The administrator is listed as a student, also if the sender puts somebody else on the list.  To
put files into the text of a submission is of as little use. -/
theorem roster_exact_enrolled :
    (∃ (entries : List RosterEntry) (u : Server),
      rosterRoute.call ⟨courseText "\"users\": [\"eve\"], ", []⟩ enrolledServer =
        (.content (.object [("users", .array (entries.map RosterEntry.toJson))]), u) ∧
      ∀ e, e ∈ entries ↔ e = ⟨"kim", none, .student⟩) ∧
    submitRoute.call ⟨courseText "\"files\": [\"main.c\"], ", []⟩ enrolledServer =
      submitRoute.call ⟨courseText "", []⟩ enrolledServer := by
  obtain ⟨hexact, husers, hfiles⟩ := roster_exact
  have hasked : AlikeBut "users" (courseText "\"users\": [\"eve\"], ") (courseText "") :=
    .of_more [_] [_] rfl rfl (by decide) rfl
  have hsubmitted : AlikeBut "files" (courseText "\"files\": [\"main.c\"], ") (courseText "") :=
    .of_more [_] [_] rfl rfl (by decide) rfl
  refine ⟨?_, (hfiles.same _ _ hsubmitted rfl [] _).2⟩
  have hanswer : ∃ v u, rosterRoute.call ⟨courseText "", []⟩ enrolledServer = (.content v, u) :=
    ⟨_, _, rfl⟩
  obtain ⟨v, u, hcall⟩ := hanswer
  obtain ⟨r, context, c, entries, hdecode, hfind, hlists, rfl⟩ :=
    hexact [.course ⟨"cs1", ""⟩, .account studentAdmin] enrolledServer rfl _ v u hcall
  have htext : decodeText? rosterKind.decode (courseText "") =
      some ([], ⟨"cs1", "", "", "", "n"⟩) :=
    rfl
  obtain rfl : _ = context := (Prod.mk.inj (Option.some.inj (htext.symm.trans hdecode))).2
  obtain rfl : ⟨"cs1", ""⟩ = c := Except.ok.inj hfind
  have haccounts : enrolledServer.backend.store.accounts.entries = [("kim", studentAdmin)] := rfl
  refine ⟨entries, u, (husers.same _ _ hasked rfl [] _).2.trans hcall, fun e => ?_⟩
  rw [hlists.mem_iff, Store.account?]
  constructor
  · rintro ⟨a, hfound, hname, hrole⟩
    rw [← Table.mem_entries_iff, haccounts, List.mem_singleton] at hfound
    obtain ⟨hemail, rfl⟩ := Prod.mk.inj hfound
    obtain ⟨email, name, role⟩ := e
    cases hemail
    cases hname
    cases hrole
    rfl
  · rintro rfl
    exact ⟨studentAdmin, rfl, rfl, rfl⟩

def nestedArrays (depth : Nat) : String :=
  String.ofList (List.replicate depth '[' ++ List.replicate depth ']')

/-- **What goes unread can still show.**  The reader accepts 127 arrays in one another, but not
within an object, so that a request with them under `users` is refused, which is granted without
them.  And a request that is refused anyway for its course is refused with another message, since a
reader says where it stopped (`Wording.lastColumn`). -/
theorem unread_member_shows :
    (Value.ofString? (nestedArrays 127)).isSome = true ∧
    (∃ v u, rosterRoute.call ⟨courseText "", []⟩ enrolledServer = (.content v, u)) ∧
    rosterRoute.call ⟨courseText ("\"users\": " ++ nestedArrays 127 ++ ", "), []⟩ enrolledServer =
      (.refused (.malformedRequest "not a document of type ListUsersRequest"), enrolledServer) ∧
    AlikeBut "users" "\x7b\"course-id\":null,\"users\":[]\x7d" "\x7b\"course-id\":null\x7d" ∧
    (rosterRoute.call ⟨"\x7b\"course-id\":null,\"users\":[]\x7d", []⟩
        { enrolledServer with wording := .lastColumn }).1 =
      .refused (.malformedRequest
        "invalid type: null, expected a string at line 1 column 29") ∧
    (rosterRoute.call ⟨"\x7b\"course-id\":null\x7d", []⟩
        { enrolledServer with wording := .lastColumn }).1 =
      .refused (.malformedRequest
        "invalid type: null, expected a string at line 1 column 18") := by
  have hdeep : decodeText? rosterKind.decode
      (courseText ("\"users\": " ++ nestedArrays 127 ++ ", ")) = none :=
    Option.isNone_iff_eq_none.1 (by decide +kernel)
  have hdisregards : rosterKind.Disregards rosterRoute "users" := ignores_rosterKind.disregards
  have hrefused := hdisregards.unread _ hdeep [] enrolledServer
  refine ⟨by decide +kernel, ⟨_, _, rfl⟩, hrefused.2, ?_, rfl, rfl⟩
  exact .of_more [_] [] rfl rfl (by decide) rfl

end Endpoint
end Coursework
