import EntityRules.Path.Form
import EntityRules.Proofs.FirstFault

/-!
# `EntityRules.Proofs.Path.RoundTrip`: a path read back from its dotted form

A path can be written with any segments, but only some paths can be told from
their text: a segment that holds a dot is two segments to the reader, and an
empty one is refused. `Readable` paths have neither.

* `parse_text`: a readable path is read from its text.
* `parse_nonempty_iff`: which texts are read as a path that is not empty, and as which.
* `readable_of_parse`: whatever is read is readable.
* `parseList_listToJson`, `readable_of_parseList`: the same for lists of paths as
  JSON.
-/

set_option autoImplicit false

namespace EntityRules.Path

open Proofs

/-- `IsSegment segment`: the segment keeps its place in a text, as it is not empty and
holds no dot. -/
def IsSegment (segment : String) : Prop := segment ≠ "" ∧ '.' ∉ segment.toList

/-- `p.Readable`: the path can be told from its text, as each of its segments
`IsSegment`. -/
def Readable (p : Path) : Prop := ∀ segment ∈ p.segments, IsSegment segment

/-! ### One path -/

/-- `splitOn` leaves what it splits at out of every piece. -/
theorem not_mem_of_mem_splitOn {chars piece : List Char} (h : piece ∈ chars.splitOn '.') :
    '.' ∉ piece := by
  induction chars generalizing piece with
  | nil =>
      rw [List.splitOn_nil, List.mem_singleton] at h
      exact h ▸ List.not_mem_nil
  | cons c rest ih =>
      rw [List.splitOn_cons_eq_if_modifyHead] at h
      cases hsplit : rest.splitOn '.' with
      | nil => exact absurd hsplit (List.splitOn_ne_nil '.' rest)
      | cons head others =>
          rw [hsplit] at h ih
          split at h
          · rcases List.mem_cons.mp h with h | h
            · exact h ▸ List.not_mem_nil
            · exact ih h
          · next hc =>
              -- A character that is no dot goes to the front of the first piece.
              rw [List.modifyHead_cons] at h
              rcases List.mem_cons.mp h with h | h
              · have hhead := ih (List.mem_cons_self ..)
                rw [h, List.mem_cons]
                rintro (hdot | hdot)
                · exact hc (by simp [← hdot])
                · exact hhead hdot
              · exact ih (List.mem_cons_of_mem _ h)

/-- `text` has dots between the characters of the segments. -/
theorem toList_text (p : Path) :
    p.text.toList = ['.'].intercalate (p.segments.map String.toList) := by
  rw [text, String.toList_intercalate]
  rfl

/-- `pieces` of the `text` of a `Readable` path are its segments. -/
theorem pieces_text {p : Path} (hp : p.Readable) (hne : p.segments ≠ []) :
    pieces p.text = p.segments := by
  have hdots : ∀ chars ∈ p.segments.map String.toList, '.' ∉ chars := by
    intro chars hchars
    obtain ⟨segment, hsegment, rfl⟩ := List.mem_map.mp hchars
    exact (hp segment hsegment).2
  rw [pieces, toList_text, List.splitOn_intercalate '.' hdots (by simpa using hne), List.map_map]
  have hround : (String.ofList ∘ String.toList) = id := funext fun _ => String.ofList_toList
  rw [hround, List.map_id]

/-- `parse` reads a `Readable` path from its `text`. -/
theorem parse_text {p : Path} (hp : p.Readable) : parse p.text = .ok p := by
  obtain ⟨segments⟩ := p
  cases segments with
  | nil => rfl
  | cons first rest =>
      have hpieces := pieces_text hp (List.cons_ne_nil first rest)
      have hfirst : first ≠ "" := (hp first (List.mem_cons_self ..)).1
      -- The empty text has the empty text as its only piece, which is no segment.
      have hne : (text ⟨first :: rest⟩).isEmpty = false := by
        by_contra h
        rw [Bool.not_eq_false, String.isEmpty_iff] at h
        rw [h] at hpieces
        have hempty : pieces "" = [""] := rfl
        rw [hempty] at hpieces
        exact hfirst (List.cons.inj hpieces).1.symm
      have hsegments : (first :: rest).any String.isEmpty = false := by
        rw [List.any_eq_false]
        intro segment hsegment h
        exact (hp segment hsegment).1 (String.isEmpty_iff.mp h)
      rw [parse, hne, hpieces]
      simp only [Bool.false_eq_true, if_false, hsegments]

/-- `isEmpty` holds of some piece where `""` is one of the `pieces`. -/
theorem any_isEmpty_iff {text : String} :
    (pieces text).any String.isEmpty = true ↔ "" ∈ pieces text := by
  simp [List.any_eq_true]

/-- `parse` reads a text as a path that is not empty when it is not empty and none of
its `pieces` is. -/
theorem parse_nonempty_iff {text : String} {p : Path} :
    (parse text = .ok p ∧ p.isEmpty = false) ↔
      text ≠ "" ∧ "" ∉ pieces text ∧ p = ⟨pieces text⟩ := by
  have hpieces : pieces text ≠ [] := by
    rw [pieces, ne_eq, List.map_eq_nil_iff]
    exact List.splitOn_ne_nil '.' text.toList
  rw [parse]
  by_cases htext : text = ""
  -- The empty text is the path without segments.
  · subst htext
    simp only [ne_eq, not_true_eq_false, false_and, iff_false]
    rintro ⟨h, hp⟩
    cases h
    cases hp
  · have hempty : text.isEmpty = false := by simpa [String.isEmpty_iff] using htext
    rw [hempty]
    -- Any other has a piece at least, and is refused if one is empty.
    by_cases hpiece : "" ∈ pieces text
    · simp [any_isEmpty_iff.mpr hpiece, hpiece]
    · simp only [Bool.false_eq_true, if_false, any_isEmpty_iff, hpiece, Except.ok.injEq, ne_eq,
        htext, not_false_eq_true, true_and]
      constructor
      · rintro ⟨rfl, -⟩
        rfl
      · rintro rfl
        exact ⟨rfl, by simpa [isEmpty] using hpieces⟩

/-- `parse` reads `Readable` paths only. -/
theorem readable_of_parse {text : String} {p : Path} (h : parse text = .ok p) : p.Readable := by
  rw [parse] at h
  split at h
  · cases h
    exact fun segment hsegment => absurd hsegment List.not_mem_nil
  · dsimp only at h
    split at h
    · cases h
    · next hany =>
        cases h
        intro segment hsegment
        have hnonempty : ¬ segment.isEmpty := fun hempty =>
          hany (List.any_eq_true.mpr ⟨segment, hsegment, hempty⟩)
        obtain ⟨chars, hchars, rfl⟩ := List.mem_map.mp hsegment
        refine ⟨fun hempty => hnonempty (String.isEmpty_iff.mpr hempty), ?_⟩
        rw [String.toList_ofList]
        exact not_mem_of_mem_splitOn hchars

/-! ### Paths as JSON -/

/-- `parseList` reads `Readable` paths only. -/
theorem readable_of_parseList {list : String} {v : Json} {paths : List Path}
    (h : parseList list v = .ok paths) : ∀ p ∈ paths, p.Readable := by
  rw [parseList] at h
  split at h
  · cases h
  · refine forall_mem_of_mapM_eq_ok h fun item p hitem => ?_
    split at hitem
    · cases hitem
    · exact readable_of_parse hitem

/-- `parseList` reads `Readable` paths from their `listToJson`, under any name. -/
theorem parseList_listToJson {list : String} {paths : List Path} (h : ∀ p ∈ paths, p.Readable) :
    parseList list (listToJson paths) = .ok paths := by
  rw [listToJson, parseList]
  simp only [Json.asArray?]
  have hmap : paths.map (fun p => p) = paths := List.map_id' paths
  refine (mapM_map_eq_ok fun p hp => ?_).trans (congrArg Except.ok hmap)
  exact parse_text (h p hp)

end EntityRules.Path
