import Coursework.Proofs.Text.Utf8
import Coursework.Transport.Form

/-!
# Forms that are read back

A form with one document and no files is read as that document (`Form.read_ofContent`), whatever its
boundary is, provided no line of the document can be taken for one.  A document on a single line is
safe, since a boundary stands at the beginning of a line.

The reader cuts at patterns.  Where the first octet of a pattern does not occur before it, it is cut
there (`Text.cut?_append`).
-/

set_option autoImplicit false

namespace Coursework
namespace Text

theorem cutFrom?_append {first : UInt8} {before : List UInt8} (h : first ∉ before)
    (pattern passed behind : List UInt8) :
    cutFrom? (first :: pattern) passed (before ++ (first :: pattern ++ behind)) =
      some (passed.reverse ++ before, behind) := by
  induction before generalizing passed with
  | nil =>
    have hprefix : (first :: pattern).isPrefixOf (first :: (pattern ++ behind)) = true :=
      List.isPrefixOf_iff_prefix.2 ⟨behind, rfl⟩
    rw [List.nil_append, List.cons_append, cutFrom?, if_pos hprefix, List.append_nil,
      ← List.cons_append, List.drop_left]
  | cons b before ih =>
    have hb : first ≠ b := fun heq => h (heq ▸ List.mem_cons_self)
    have hprefix :
        (first :: pattern).isPrefixOf (b :: (before ++ (first :: pattern ++ behind))) ≠ true := by
      simp [List.isPrefixOf, hb]
    rw [List.cons_append, cutFrom?, if_neg hprefix, ih fun hmem => h (List.mem_cons_of_mem b hmem)]
    simp

/-- Octets are cut at a pattern whose first octet does not occur before it. -/
theorem cut?_append {first : UInt8} {before : List UInt8} (h : first ∉ before)
    (pattern behind : List UInt8) :
    cut? (first :: pattern) (before ++ (first :: pattern ++ behind)) = some (before, behind) :=
  cutFrom?_append h pattern [] behind

end Text

namespace Form

def contentHead : List UInt8 :=
  Text.utf8 "Content-Disposition: form-data; name=\"content\""

def contentDisposition : List UInt8 :=
  Text.utf8 "form-data; name=\"content\""

theorem fields?_contentHead :
    Head.fields? contentHead = some [⟨Text.utf8 "content-disposition", contentDisposition⟩] := by
  decide

theorem parameter?_name : Head.parameter? "name" contentDisposition = some contentName := by
  have hcut : Text.cut? (Text.utf8 "name") contentDisposition =
      some (Text.utf8 "form-data; ", Text.utf8 "=\"content\"") := by decide
  have hvalue : Head.value? (Text.utf8 "=\"content\"") = some (Text.utf8 contentName) := by
    decide
  have hoctets : Head.parameterOctets? (Text.utf8 "name") contentDisposition =
      some (Text.utf8 contentName) := by
    rw [Head.parameterOctets?, if_neg (by decide)]
    split
    · next hnone =>
      rw [hcut] at hnone
      cases hnone
    · next before rest hsome =>
      rw [hcut] at hsome
      cases hsome
      rw [if_pos (by decide)]
      exact hvalue
  rw [Head.parameter?, hoctets, Option.bind_some, Text.ofUtf8?_utf8]

theorem parameter?_filename : Head.parameter? "filename" contentDisposition = none := by
  have hcut : Text.cut? (Text.utf8 "filename") contentDisposition = none := by decide
  have hoctets : Head.parameterOctets? (Text.utf8 "filename") contentDisposition = none := by
    rw [Head.parameterOctets?, if_neg (by decide)]
    split
    · rfl
    · next hsome =>
      rw [hcut] at hsome
      cases hsome
  rw [Head.parameter?, hoctets, Option.bind_none]

/-- A form with one document, as it is sent: between two boundaries, under `contentHead`. -/
theorem octets_ofContent (boundary content : String) : (ofContent boundary content).octets =
    dashes ++ Text.utf8 boundary ++
      (13 :: 10 :: (contentHead ++ (Head.ending ++ (Text.utf8 content ++
        (delimiter boundary ++ Text.utf8 "--\r\n"))))) := by
  have hhead : Text.utf8 (partHead ⟨some contentName, none, Text.utf8 content⟩) =
      contentHead ++ Head.ending := by
    rfl
  simp only [octets, ofContent, List.flatMap_cons, List.flatMap_nil, partOctets,
    Text.utf8_append, hhead]
  have hdashes : Text.utf8 "--" = dashes := rfl
  have hline : Text.utf8 "\r\n" = [13, 10] := rfl
  rw [hdashes, hline, delimiter]
  simp

theorem nextPart?_content (boundary : String) {content : List UInt8} (hline : 13 ∉ content)
    (behind : List UInt8) :
    nextPart? (delimiter boundary)
        (13 :: 10 :: (contentHead ++ (Head.ending ++
          (content ++ (delimiter boundary ++ behind))))) =
      some (⟨some contentName, none, content⟩, behind) := by
  have hhead : (13 : UInt8) ∉ contentHead := by decide
  have hending : Text.cut? Head.ending
      (contentHead ++ (Head.ending ++ (content ++ (delimiter boundary ++ behind)))) =
      some (contentHead, content ++ (delimiter boundary ++ behind)) := Text.cut?_append hhead _ _
  have hcontent : Text.cut? (delimiter boundary) (content ++ (delimiter boundary ++ behind)) =
      some (content, behind) := Text.cut?_append hline _ _
  have hdisposition : Head.disposition? [⟨Text.utf8 "content-disposition", contentDisposition⟩] =
      some contentDisposition := by decide
  rw [nextPart?, List.dropWhile_cons_of_neg (by decide)]
  simp only [hending, fields?_contentHead, hcontent, hdisposition, Option.bind_some,
    parameter?_name, parameter?_filename]

theorem partsFrom?_end (delimiter behind : List UInt8) :
    partsFrom? delimiter (dashes ++ behind) = some [] := by
  rw [partsFrom?, if_pos (List.isPrefixOf_iff_prefix.2 ⟨behind, rfl⟩)]

theorem partsFrom?_next {delimiter octets rest : List UInt8} {p : Part}
    (hopen : dashes.isPrefixOf octets = false) (h : nextPart? delimiter octets = some (p, rest)) :
    partsFrom? delimiter octets = (partsFrom? delimiter rest).map (p :: ·) := by
  rw [partsFrom?, if_neg (by rw [hopen]; decide)]
  split
  · next hnone =>
    rw [h] at hnone
    cases hnone
  · next hsome =>
    rw [h] at hsome
    cases hsome
    rfl

theorem parts?_ofContent (boundary : String) {content : String} (hline : 13 ∉ Text.utf8 content) :
    parts? boundary (ofContent boundary content).octets =
      some [⟨some contentName, none, Text.utf8 content⟩] := by
  have hclose : Text.utf8 "--\r\n" = dashes ++ [13, 10] := rfl
  have hcut : ∀ behind, Text.cut? (dashes ++ Text.utf8 boundary)
      (dashes ++ Text.utf8 boundary ++ behind) = some ([], behind) :=
    @Text.cut?_append 45 [] List.not_mem_nil (45 :: Text.utf8 boundary)
  have hpart := nextPart?_content boundary hline (dashes ++ [13, 10])
  rw [octets_ofContent, parts?, hcut, hclose]
  dsimp only
  rw [partsFrom?_next rfl hpart, partsFrom?_end]
  rfl

/-- **A form with one document is read as that document**, if the document stands on one line and
does not begin with the mark of an encoding. -/
theorem read_ofContent (w : Wording) {limit : Nat} {boundary content : String}
    (hlimit : (ofContent boundary content).octets.length ≤ limit)
    (hline : 13 ∉ Text.utf8 content) {c : Char} {cs : List Char} (hfirst : content.toList = c :: cs)
    (hascii : c.toNat < 128) :
    read w limit (ofContent boundary content).body = .ok ⟨content, []⟩ := by
  have hparts := parts?_ofContent boundary hline
  have hlossy := Text.lossy_utf8 hfirst hascii
  have hcontent : content? [⟨some contentName, none, Text.utf8 content⟩] = some content := by
    have hkept : [(⟨some contentName, none, Text.utf8 content⟩ : Part)].filter
        (fun p => p.filename.isNone && p.name == some contentName) =
        [⟨some contentName, none, Text.utf8 content⟩] := by
      simp
    rw [content?, hkept]
    exact congrArg some hlossy
  rw [body, read, if_neg (Nat.not_lt.2 hlimit)]
  simp only [ofContent] at hparts ⊢
  simp only [hparts, hcontent]
  rfl

/-- A form that is too long is refused in the words of its reader (`Wording.form`), whatever is in
it. -/
theorem read_of_over (w : Wording) {limit : Nat} {boundary : String} {octets : List UInt8}
    (hover : limit < octets.length) :
    read w limit (.form boundary octets) = .error
      (.malformedRequest (w.form limit boundary octets)) := by
  rw [read, if_pos hover]

end Form
end Coursework
