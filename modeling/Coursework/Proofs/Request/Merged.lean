import Coursework.Proofs.Json.Records
import Coursework.Proofs.Nonces
import Coursework.Proofs.Request.Stages
import Coursework.Service.Route
import Coursework.Transport.Local

/-!
# Requests that are written with a nonce

A request type reads fields of its own by their names beside the context (`RequestKind.IsMerged`).
Of the members of an object that shows a nonce, such a request depends on all but the sender's email
and password: whatever texts stand there, the request is the same and the context differs at most in
them (`RequestKind.IsMerged.decode_congr`), and no stage looks at them when there is a nonce
(`Request.materialize_congr_sender`).

A live nonce makes the sender root, and owner of the course if there is one
(`Request.admitSender_of_nonce`).  It is the only nonce that the request can spend
(`Request.nonces_materialize`).
-/

set_option autoImplicit false

namespace Coursework

open Json

/-! ## Fields of its own -/

namespace Json.Decode

/-- What is read out of fields depends on those with the names `own` only. -/
def ByNames {R : Type} (own : List String) (read : Fields → Option R) : Prop :=
  ∀ f g : Fields, (∀ name ∈ own, f.lookup name = g.lookup name) → read f = read g

/-- Every field whose name is not among `own` stands for a value, which is what `Decode.merged?`
asks of them. -/
def keptReadable (own : List String) (fields : Fields) : Bool :=
  (fields.filter fun f => !own.contains f.1).all fun f => (f.2.toValue? (depthLimit - 1)).isSome

theorem merged?_source {members : List (String × Value)} (h : (members.map Prod.fst).Nodup)
    (own other : List String) : merged? own other (Value.object members).source =
      if keptReadable own (fieldsOf members) then some (fieldsOf members) else none := by
  rw [Value.source, merged?, textKeys_memberSources]
  simp only [eachOnce_fieldsOf h, Bool.true_and]
  rfl

theorem keptReadable_fieldsOf {members : List (String × Value)} (h : (members.map Prod.fst).Nodup)
    (own : List String) : keptReadable own (fieldsOf members) = true ↔
      ∀ name v, members.lookup name = some v → name ∉ own →
        (v.source.toValue? (depthLimit - 1)).isSome = true := by
  rw [keptReadable, List.all_eq_true]
  constructor
  · intro hall name v hlookup hown
    refine hall (name, v.source) (List.mem_filter.2 ⟨?_, by simpa using hown⟩)
    exact List.mem_map.2 ⟨(name, v), Table.mem_of_lookup hlookup, rfl⟩
  · intro hall f hf
    obtain ⟨hmem, hown⟩ := List.mem_filter.1 hf
    obtain ⟨⟨name, v⟩, hm, rfl⟩ := List.mem_map.1 hmem
    exact hall name v (Table.lookup_of_mem h hm) (by simpa using hown)

end Json.Decode

open Json.Decode

/-! ## The context -/

def senderNames : List String :=
  ["user-email", "user-pass", "root-user-nonce"]

/-- A member is a text, or is not there and stands for the empty one, as `Context.ofFields?` has
it. -/
def ShowsText (members : List (String × Value)) (name text : String) : Prop :=
  members.lookup name = some (.string text) ∨ members.lookup name = none ∧ text = ""

theorem orElse_of_showsText {members : List (String × Value)} {name text : String}
    (h : ShowsText members name text) :
    (fieldsOf members).orElse name "" string = some text := by
  obtain h | ⟨h, rfl⟩ := h
  · rw [orElse_fieldsOf h]
    rfl
  · rw [Fields.orElse, lookup_fieldsOf, h]
    rfl

theorem Context.ofFields?_eq {members : List (String × Value)} {email pass nonce : String}
    (hemail : ShowsText members "user-email" email) (hpass : ShowsText members "user-pass" pass)
    (hnonce : ShowsText members "root-user-nonce" nonce) :
    Context.ofFields? (fieldsOf members) =
      ((fieldsOf members).orElse "course-id" "" string).bind fun courseId =>
        ((fieldsOf members).orElse "assignment-id" "" string).bind fun assignmentId =>
          some ⟨courseId, assignmentId, email, pass, nonce⟩ := by
  rw [ofFields?, orElse_of_showsText hemail, orElse_of_showsText hpass, orElse_of_showsText hnonce]
  rfl

/-- An object shows a nonce: no key in it occurs twice, and one is that of the nonce. -/
structure ShowsNonce (members : List (String × Value)) (nonce : String) : Prop where
  keys : (members.map Prod.fst).Nodup
  nonce : members.lookup "root-user-nonce" = some (.string nonce)

/-- Two requests differ at most in what they show of their sender (`senderNames`), and it is texts
that they show as email and password. -/
structure AlikeButSender (a b : List (String × Value)) : Prop where
  other : ∀ name, name ∉ senderNames → a.lookup name = b.lookup name
  email : ∃ s t, ShowsText a "user-email" s ∧ ShowsText b "user-email" t
  pass : ∃ s t, ShowsText a "user-pass" s ∧ ShowsText b "user-pass" t

theorem AlikeButSender.symm {a b : List (String × Value)} (h : AlikeButSender a b) :
    AlikeButSender b a where
  other name hname := (h.other name hname).symm
  email := by
    obtain ⟨s, t, hs, ht⟩ := h.email
    exact ⟨t, s, ht, hs⟩
  pass := by
    obtain ⟨s, t, hs, ht⟩ := h.pass
    exact ⟨t, s, ht, hs⟩

structure Context.AlikeButSender (a b : Context) : Prop where
  courseId : a.courseId = b.courseId
  assignmentId : a.assignmentId = b.assignmentId
  nonce : a.nonce = b.nonce

theorem ShowsText.readable {members : List (String × Value)} {name text : String}
    (h : ShowsText members name text) {v : Value} (hv : members.lookup name = some v) (room : Nat) :
    (v.source.toValue? room).isSome = true := by
  obtain h | ⟨h, -⟩ := h
  · rw [h] at hv
    cases hv
    rfl
  · rw [h] at hv
    cases hv

/-- What the sender shows in texts does not keep a request from being read. -/
theorem AlikeButSender.keptReadable {a b : List (String × Value)} (h : AlikeButSender a b)
    {nonce : String} (ha : ShowsNonce a nonce) (hb : ShowsNonce b nonce) {own : List String}
    (hkept : keptReadable own (fieldsOf a) = true) : keptReadable own (fieldsOf b) = true := by
  obtain ⟨-, email, -, hemail⟩ := h.email
  obtain ⟨-, pass, -, hpass⟩ := h.pass
  have hnonce : ShowsText b "root-user-nonce" nonce := .inl hb.nonce
  rw [keptReadable_fieldsOf ha.keys] at hkept
  rw [keptReadable_fieldsOf hb.keys]
  intro name v hv hown
  by_cases hsender : name ∈ senderNames
  · simp only [senderNames, List.mem_cons, List.not_mem_nil, or_false] at hsender
    obtain rfl | rfl | rfl := hsender
    · exact hemail.readable hv _
    · exact hpass.readable hv _
    · exact hnonce.readable hv _
  · exact hkept name v ((h.other name hsender).trans hv) hown

namespace RequestKind

variable {R : Type}

/-- A request type reads fields of its own by their names (`ByNames`), beside a context of which it
has none. -/
def IsMerged (kind : RequestKind R) : Prop :=
  ∃ own read, kind.decode = decodeWith own read ∧ ByNames own read ∧
    ∀ name ∈ own, name ∉ Context.names

theorem decodeWith_object {own : List String} {read : Fields → Option R}
    {members : List (String × Value)} (h : (members.map Prod.fst).Nodup) :
    decodeText? (decodeWith own read) (Value.object members).text =
      if keptReadable own (fieldsOf members) then
        (read (fieldsOf members)).bind fun r =>
          (Context.ofFields? (fieldsOf members)).bind fun context => some (r, context)
      else none := by
  rw [decodeText?, Value.ofString?_text, Option.bind_some, decodeWith, merged?_source h]
  split <;> rfl

theorem IsMerged.nonce_eq {kind : RequestKind R} (hkind : kind.IsMerged)
    {members : List (String × Value)} {nonce : String} (h : ShowsNonce members nonce) {r : R}
    {context : Context}
    (hread : decodeText? kind.decode (Value.object members).text = some (r, context)) :
    context.nonce = nonce := by
  obtain ⟨own, read, hdecode, -, -⟩ := hkind
  rw [hdecode, decodeWith_object h.keys] at hread
  split at hread
  · obtain ⟨r', -, hread⟩ := Option.bind_eq_some_iff.1 hread
    obtain ⟨context', hcontext, hread⟩ := Option.bind_eq_some_iff.1 hread
    cases hread
    obtain ⟨courseId, -, hcontext⟩ := Option.bind_eq_some_iff.1 hcontext
    obtain ⟨assignmentId, -, hcontext⟩ := Option.bind_eq_some_iff.1 hcontext
    obtain ⟨email, -, hcontext⟩ := Option.bind_eq_some_iff.1 hcontext
    obtain ⟨pass, -, hcontext⟩ := Option.bind_eq_some_iff.1 hcontext
    obtain ⟨shown, hshown, hcontext⟩ := Option.bind_eq_some_iff.1 hcontext
    rw [orElse_of_showsText (.inl h.nonce)] at hshown
    cases hshown
    cases hcontext
    rfl
  · cases hread

/-- **Whatever texts are shown as email and password, the request is read alike.** -/
theorem IsMerged.decode_congr {kind : RequestKind R} (hkind : kind.IsMerged)
    {a b : List (String × Value)} (halike : AlikeButSender a b) {nonce : String}
    (ha : ShowsNonce a nonce) (hb : ShowsNonce b nonce) :
    (decodeText? kind.decode (Value.object a).text = none ∧
      decodeText? kind.decode (Value.object b).text = none) ∨
    ∃ r context other, decodeText? kind.decode (Value.object a).text = some (r, context) ∧
      decodeText? kind.decode (Value.object b).text = some (r, other) ∧
      context.AlikeButSender other := by
  obtain ⟨own, read, hdecode, hnames, hown⟩ := hkind
  obtain ⟨aemail, bemail, haemail, hbemail⟩ := halike.email
  obtain ⟨apass, bpass, hapass, hbpass⟩ := halike.pass
  have hlookup : ∀ name, name ∉ senderNames →
      (fieldsOf a).lookup name = (fieldsOf b).lookup name := fun name hname => by
    rw [lookup_fieldsOf, lookup_fieldsOf, halike.other name hname]
  have hread : read (fieldsOf a) = read (fieldsOf b) := by
    have hsub : ∀ name ∈ senderNames, name ∈ Context.names := by decide
    exact hnames _ _ fun name hmem => hlookup name fun hsender => hown name hmem (hsub name hsender)
  have hfield : ∀ name, name ∉ senderNames →
      (fieldsOf a).orElse name "" string = (fieldsOf b).orElse name "" string :=
        fun name hname => by
    rw [Fields.orElse, Fields.orElse, hlookup name hname]
  have hkept : keptReadable own (fieldsOf a) = keptReadable own (fieldsOf b) :=
    Bool.eq_iff_iff.2 ⟨halike.keptReadable ha hb, halike.symm.keptReadable hb ha⟩
  rw [hdecode, decodeWith_object ha.keys, decodeWith_object hb.keys, hkept, hread,
    Context.ofFields?_eq haemail hapass (.inl ha.nonce),
    Context.ofFields?_eq hbemail hbpass (.inl hb.nonce), hfield "course-id" (by decide),
    hfield "assignment-id" (by decide)]
  split
  · cases read (fieldsOf b) with
    | none => exact .inl ⟨rfl, rfl⟩
    | some r =>
      cases (fieldsOf b).orElse "course-id" "" string with
      | none => exact .inl ⟨rfl, rfl⟩
      | some courseId =>
        cases (fieldsOf b).orElse "assignment-id" "" string with
        | none => exact .inl ⟨rfl, rfl⟩
        | some assignmentId => exact .inr ⟨r, _, _, rfl, rfl, rfl, rfl, rfl⟩
  · exact .inl ⟨rfl, rfl⟩

end RequestKind

/-! ## The stages -/

namespace Nonces

/-- Nothing was spent, except perhaps one nonce. -/
def SpentAtMost (nonce : String) (before after : Nonces) : Prop :=
  after = before ∨ after = before.remove nonce

theorem remove_remove (s : Nonces) (nonce : String) :
    (s.remove nonce).remove nonce = s.remove nonce := by
  rw [remove, remove, List.filter_filter]
  simp

/-- To make a nonce void again that was drawn anew leaves no trace. -/
theorem remove_insert {s : Nonces} {nonce : String} (h : s.contains nonce = false) :
    (s.insert nonce).remove nonce = s := by
  have hself := remove_of_not_contains h
  rw [insert, if_neg (by rw [h]; decide), remove, List.filter_cons_of_neg (by simp)]
  exact hself

/-- A nonce that was drawn anew leaves no trace once it is void. -/
theorem SpentAtMost.release_insert {s after : Nonces} {nonce : String}
    (hfresh : s.contains nonce = false)
    (h : SpentAtMost nonce (s.insert nonce) after) : after.release nonce = s := by
  rw [release]
  obtain rfl | rfl := h
  · exact remove_insert hfresh
  · rw [remove_remove, remove_insert hfresh]

end Nonces

open Nonces (SpentAtMost)

namespace Request

variable {R : Type}

theorem nonces_authenticate (b : Backend) (nonces : Nonces) (context : Context)
    (course : Option Course) :
    SpentAtMost context.nonce nonces (authenticate b nonces context course).2 := by
  rw [authenticate]
  split
  · exact .inl rfl
  · by_cases hlive : (nonces.consume context.nonce).1 = true
    · have hleft := Nonces.consume_of_true hlive
      split
      · next heq =>
        rw [heq] at hleft
        exact .inr hleft
      · next heq =>
        rw [heq] at hleft
        exact .inr hleft
    · rw [Nonces.consume_of_false hlive]
      exact .inl rfl

theorem nonces_admitSender (schema : Schema) (b : Backend) (nonces : Nonces) (context : Context)
    (course : Option Course) :
    SpentAtMost context.nonce nonces (admitSender schema b nonces context course).2 := by
  have hauthenticate := nonces_authenticate b nonces context course
  rw [admitSender]
  split
  · split
    · next heq => rwa [heq] at hauthenticate
    · next heq =>
      rw [heq] at hauthenticate
      split <;> exact hauthenticate
  · exact .inl rfl

theorem nonces_complete (kind : RequestKind R) (files : List Upload) (r : R)
    (course : Option Course) (assignment : Option Assignment) (identity : Option Identity)
    (s : Server) : (complete kind files r course assignment identity s).2.nonces = s.nonces := by
  rw [complete]
  split <;> rfl

theorem nonces_materialize (kind : RequestKind R) (raw : RawRequest) (s : Server) :
    (materialize kind raw s).2.nonces = s.nonces ∨
      ∃ r context, decodeText? kind.decode raw.content = some (r, context) ∧
        (materialize kind raw s).2.nonces = s.nonces.remove context.nonce := by
  rw [materialize]
  split
  · exact .inl rfl
  · next r context hdecode =>
    split
    · exact .inl rfl
    · split
      · exact .inl rfl
      · next course assignment hresolve =>
        have hadmit := nonces_admitSender kind.schema s.backend s.nonces context course
        split
        · next heq =>
          rw [heq] at hadmit
          exact hadmit.imp_right fun h => ⟨r, context, hdecode, h⟩
        · next heq =>
          rw [heq] at hadmit
          rw [nonces_complete]
          exact hadmit.imp_right fun h => ⟨r, context, hdecode, h⟩

theorem admitSender_congr {a b : Context} (h : a.AlikeButSender b) (hnonce : a.nonce ≠ "")
    (schema : Schema) (backend : Backend) (nonces : Nonces) (course : Option Course) :
    admitSender schema backend nonces a course = admitSender schema backend nonces b course := by
  have hnonce' : b.nonce ≠ "" := h.nonce ▸ hnonce
  have hauthenticate : authenticate backend nonces a course =
      authenticate backend nonces b course := by
    rw [authenticate, authenticate, if_neg hnonce, if_neg hnonce', h.nonce]
  rw [admitSender, admitSender, hauthenticate]

theorem resolve_congr {a b : Context} (h : a.AlikeButSender b) (schema : Schema)
    (backend : Backend) :
    resolve schema a backend = resolve schema b backend := by
  have hcourse : findCourse backend a = findCourse backend b := by
    rw [findCourse, findCourse, h.courseId]
  have hassignment : findAssignment backend a = findAssignment backend b := by
    funext course
    rw [findAssignment, findAssignment, h.assignmentId]
  rw [resolve, resolve, hcourse, hassignment]

/-- **Two requests that show the same nonce and differ in nothing but their sender come to the
same**, unless neither is read: each is then refused in the reader's words for its own text
(`materialize_of_unread`). -/
theorem materialize_congr_sender {kind : RequestKind R} (hkind : kind.IsMerged)
    {a b : List (String × Value)} (halike : AlikeButSender a b) {nonce : String}
    (hnonce : nonce ≠ "")
    (ha : ShowsNonce a nonce) (hb : ShowsNonce b nonce) :
    (decodeText? kind.decode (Value.object a).text = none ∧
      decodeText? kind.decode (Value.object b).text = none) ∨
    ∀ files s, materialize kind ⟨(Value.object a).text, files⟩ s =
      materialize kind ⟨(Value.object b).text, files⟩ s := by
  refine (hkind.decode_congr halike ha hb).imp_right ?_
  rintro ⟨r, context, other, hsome, hsome', hsame⟩ files s
  have hshown := hkind.nonce_eq ha hsome
  simp only [materialize, hsome, hsome', resolve_congr hsame,
    admitSender_congr hsame (hshown ▸ hnonce)]

/-! ## Root -/

/-- Who a request with a live nonce runs as: `Account.root`, in the course that the request is about
if there is one. -/
def rootIdentity (course : Option Course) : Identity :=
  ⟨Account.root, course.map fun _ => .owner, true⟩

theorem authenticate_of_nonce {b : Backend} {nonces : Nonces} {context : Context}
    (hnonce : context.nonce ≠ "") (hlive : nonces.contains context.nonce = true)
    (course : Option Course) :
    authenticate b nonces context course =
      (.ok (rootIdentity course), nonces.remove context.nonce) := by
  have hroot : identify Account.root course true = rootIdentity course := by
    cases course <;> rfl
  rw [authenticate, if_neg hnonce, Nonces.consume, if_neg hnonce, hlive, hroot]

theorem authorize_root {schema : Schema} (hvalid : schema.validate = .ok ()) {context : Context}
    {b : Backend} {course : Option Course} {assignment : Option Assignment}
    (hresolve : resolve schema context b = .ok (course, assignment)) :
    authorize schema (rootIdentity course) = .ok () := by
  rw [authorize_eq, if_pos]
  intro role hrole
  obtain ⟨c, -, rfl⟩ := findCourse_of_resolve hresolve
    (Schema.needsCourse_of_mem_markers hvalid hrole)
  exact (Identity.hasRole_iff _ role).2 ⟨.owner, rfl, by cases role <;> rfl⟩

/-- **A request that shows a live nonce runs as root**, and as owner of its course, if it needs a
sender and its course and assignment are found. -/
theorem admitSender_of_nonce {schema : Schema} (hvalid : schema.validate = .ok ())
    (huser : schema.needsUser = true) {context : Context} {b : Backend} {course : Option Course}
    {assignment : Option Assignment}
    (hresolve : resolve schema context b = .ok (course, assignment))
    {nonces : Nonces} (hnonce : context.nonce ≠ "") (hlive : nonces.contains context.nonce = true) :
    admitSender schema b nonces context course =
      (.ok (some (rootIdentity course)), nonces.remove context.nonce) := by
  rw [admitSender, if_pos huser, authenticate_of_nonce hnonce hlive]
  simp only [authorize_root hvalid hresolve]

theorem materialize_of_nonce {kind : RequestKind R} {raw : RawRequest} {s : Server} {r : R}
    {context : Context} {course : Option Course} {assignment : Option Assignment}
    (hdecode : decodeText? kind.decode raw.content = some (r, context))
    (hvalid : kind.schema.validate = .ok ()) (huser : kind.schema.needsUser = true)
    (hresolve : resolve kind.schema context s.backend = .ok (course, assignment))
    (hnonce : context.nonce ≠ "") (hlive : s.nonces.contains context.nonce = true) :
    materialize kind raw s =
      complete kind raw.files r course assignment (some (rootIdentity course))
        { s with nonces := s.nonces.remove context.nonce } := by
  rw [materialize_of_resolved hdecode hvalid hresolve,
    admitSender_of_nonce hvalid huser hresolve hnonce hlive]

theorem rootIdentity_eq {schema : Schema} {context : Context} {b : Backend} {course : Option Course}
    {assignment : Option Assignment}
    (hresolve : resolve schema context b = .ok (course, assignment)) :
    rootIdentity course =
      ⟨Account.root, if schema.needsCourse then some .owner else none, true⟩ := by
  cases hneeds : schema.needsCourse with
  | false =>
    rw [course_of_resolve hresolve hneeds]
    rfl
  | true =>
    obtain ⟨c, -, rfl⟩ := findCourse_of_resolve hresolve hneeds
    rfl

end Request
end Coursework
