import EntityRules.Proofs.Path.RoundTrip

/-!
# `EntityRules.Proofs.Path.DottedForm`: paths and their texts, one for one

A text is a path when none of its pieces is empty, and the empty text is the empty
path. What a piece is can be said on the characters, without splitting anything: it
holds no dot, and on each side of it is a dot or the end of the text.

* `mem_pieces_iff`: splitting finds exactly the pieces.
* `parse_eq_ok_iff`: a text is read as the readable path that has this text.
* `parse_eq_error_iff`: it is refused, as a whole, for an empty piece.
* `ofJson_eq_ok_iff`: the same for paths as JSON.
* `dotted_form_bijective`: so the texts that are read and the paths that are read
  determine each other.

Among all paths a text does not determine the path: a segment may hold a dot as long as
the path is not read from its text.
-/

set_option autoImplicit false

namespace EntityRules.Path

/-! ### Pieces -/

/-- `PieceOf chars piece`: `piece` is a stretch of `chars` without a dot, and on each
side of it is a dot or the end. -/
def PieceOf (chars piece : List Char) : Prop :=
  '.' ∉ piece ∧ ∃ before after, chars = before ++ piece ++ after ∧
    (before = [] ∨ ∃ start, before = start ++ ['.']) ∧ (after = [] ∨ ∃ rest, after = '.' :: rest)

/-- `IsPiece text piece`: `PieceOf` for the characters of two texts. -/
def IsPiece (text piece : String) : Prop := PieceOf text.toList piece.toList

section Characters

variable {chars first first' rest rest' piece : List Char}

/-- Two texts are the same when what they have before the first dot and what they have
behind it is. -/
theorem append_dot_inj (hfirst : '.' ∉ first) (hfirst' : '.' ∉ first') :
    first ++ '.' :: rest = first' ++ '.' :: rest' ↔ first = first' ∧ rest = rest' := by
  induction first generalizing first' with
  -- A dot is no character of a stretch without one, so both stretches end at once.
  | nil =>
      cases first' with
      | nil => simp
      | cons c first' =>
          have hc : '.' ≠ c := List.ne_of_not_mem_cons hfirst'
          simp [hc]
  | cons c first ih =>
      cases first' with
      | nil =>
          have hc : '.' ≠ c := List.ne_of_not_mem_cons hfirst
          simp [hc.symm]
      | cons c' first' =>
          have hrest := ih (List.not_mem_of_not_mem_cons hfirst)
            (List.not_mem_of_not_mem_cons hfirst')
          rw [List.cons_append, List.cons_append, List.cons.injEq, List.cons.injEq, hrest,
            and_assoc]

/-- `PieceOf` characters without a dot is only all of them. -/
theorem pieceOf_iff_eq (hchars : '.' ∉ chars) : PieceOf chars piece ↔ piece = chars := by
  constructor
  · rintro ⟨-, before, after, hsplit, hbefore, hafter⟩
    rcases hbefore with rfl | ⟨start, rfl⟩
    · rcases hafter with rfl | ⟨rest, rfl⟩
      · simp [hsplit]
      · exact absurd (by simp [hsplit]) hchars
    · exact absurd (by simp [hsplit]) hchars
  · intro h
    exact ⟨h ▸ hchars, [], [], by simp [h], .inl rfl, .inl rfl⟩

/-- `PieceOf` characters with a dot is what ends at the first dot, and what is a piece
of the rest behind it. -/
theorem pieceOf_append_dot_iff (hfirst : '.' ∉ first) :
    PieceOf (first ++ '.' :: rest) piece ↔ piece = first ∨ PieceOf rest piece := by
  constructor
  · rintro ⟨hpiece, before, after, hsplit, hbefore, hafter⟩
    rcases hbefore with rfl | ⟨start, rfl⟩
    · left
      -- Nothing is before the piece: it ends at the first dot.
      rcases hafter with rfl | ⟨rest', rfl⟩
      · rw [List.nil_append, List.append_nil] at hsplit
        exact absurd (by simp [← hsplit]) hpiece
      · rw [List.nil_append, append_dot_inj hfirst hpiece] at hsplit
        exact hsplit.1.symm
    -- A dot is before the piece, the first one or a later one.
    · right
      rw [List.append_assoc, List.append_assoc, List.singleton_append] at hsplit
      by_cases hstart : '.' ∈ start
      · -- The first dot is before the one that the piece begins behind.
        obtain ⟨first', start', rfl, hfirst'⟩ := List.eq_append_cons_of_mem hstart
        rw [List.append_assoc, List.cons_append,
          append_dot_inj hfirst hfirst'] at hsplit
        exact ⟨hpiece, start' ++ ['.'], after, by simp [hsplit.2], .inr ⟨start', rfl⟩, hafter⟩
      · rw [append_dot_inj hfirst hstart] at hsplit
        exact ⟨hpiece, [], after, by simp [hsplit.2], .inl rfl, hafter⟩
  · rintro (rfl | ⟨hpiece, before, after, rfl, hbefore, hafter⟩)
    · exact ⟨hfirst, [], '.' :: rest, by simp, .inl rfl, .inr ⟨rest, rfl⟩⟩
    · refine ⟨hpiece, first ++ '.' :: before, after, by simp, .inr ?_, hafter⟩
      rcases hbefore with rfl | ⟨start, rfl⟩
      · exact ⟨first, rfl⟩
      · exact ⟨first ++ '.' :: start, by simp⟩

/-- `PieceOf` stretches without a dot, put together with dots, is each of the stretches.
-/
theorem pieceOf_intercalate_iff {stretches : List (List Char)} (hne : stretches ≠ [])
    (hdots : ∀ stretch ∈ stretches, '.' ∉ stretch) :
    PieceOf (['.'].intercalate stretches) piece ↔ piece ∈ stretches := by
  induction stretches with
  | nil => exact absurd rfl hne
  | cons first others ih =>
      obtain ⟨hfirst, hothers⟩ := List.forall_mem_cons.mp hdots
      cases others with
      | nil => rw [List.intercalate_singleton, pieceOf_iff_eq hfirst, List.mem_singleton]
      | cons second others =>
          have hrest := ih (List.cons_ne_nil second others) hothers
          rw [List.intercalate_cons_cons, List.append_assoc, List.singleton_append,
            pieceOf_append_dot_iff hfirst, hrest, ← List.mem_cons]

/-- `splitOn` at the dots finds exactly what is a `PieceOf` the characters. -/
theorem mem_splitOn_iff : piece ∈ chars.splitOn '.' ↔ PieceOf chars piece := by
  have hne : chars.splitOn '.' ≠ [] := List.splitOn_ne_nil '.' chars
  have hpieces : PieceOf (['.'].intercalate (chars.splitOn '.')) piece ↔
      piece ∈ chars.splitOn '.' :=
    pieceOf_intercalate_iff hne fun _ h => not_mem_of_mem_splitOn h
  rw [List.intercalate_splitOn] at hpieces
  exact hpieces.symm

end Characters

variable {text piece : String} {p q : Path} {fault : ReadError}

/-- `pieces`, which the reader looks at, are those that `IsPiece` tells of. -/
theorem mem_pieces_iff : piece ∈ pieces text ↔ IsPiece text piece := by
  rw [pieces, IsPiece, ← mem_splitOn_iff, List.mem_map]
  constructor
  · rintro ⟨chars, hchars, rfl⟩
    rwa [String.toList_ofList]
  · intro h
    exact ⟨piece.toList, h, String.ofList_toList⟩

/-! ### One text, one path -/

/-- `pieces` of a text, with dots between them, are the text. -/
theorem text_pieces (text : String) : Path.text ⟨pieces text⟩ = text := by
  have hround : String.toList ∘ String.ofList = id := funext fun _ => String.toList_ofList
  rw [← String.toList_inj, toList_text]
  show ['.'].intercalate ((pieces text).map String.toList) = text.toList
  rw [pieces, List.map_map, hround, List.map_id, List.intercalate_splitOn]

/-- `parse` reads a path that has this text. -/
theorem text_of_parse (h : parse text = .ok p) : p.text = text := by
  rw [parse] at h
  split at h
  · next hempty =>
      cases h
      exact (String.isEmpty_iff.mp hempty).symm
  · dsimp only at h
    split at h
    · cases h
    · cases h
      exact text_pieces text

/-- `parse` reads a text as the `Readable` path that has this text. -/
theorem parse_eq_ok_iff : parse text = .ok p ↔ p.Readable ∧ p.text = text := by
  constructor
  · intro h
    exact ⟨readable_of_parse h, text_of_parse h⟩
  · rintro ⟨hp, rfl⟩
    exact parse_text hp

/-- `Readable` paths are exactly those that `parse` reads from some text. -/
theorem readable_iff_exists_parse : p.Readable ↔ ∃ text, parse text = .ok p := by
  simp only [parse_eq_ok_iff, exists_and_left, exists_eq', and_true]

/-- `parse` refuses a text for an empty piece, and names it as a whole; the empty text
is not refused. -/
theorem parse_eq_error_iff :
    parse text = .error fault ↔ text ≠ "" ∧ IsPiece text "" ∧ fault = .emptySegment text := by
  have hany : (pieces text).any String.isEmpty = true ↔ IsPiece text "" := by
    rw [any_isEmpty_iff, mem_pieces_iff]
  rw [parse]
  split
  · next hempty => simp [String.isEmpty_iff.mp hempty]
  · next hempty =>
      rw [String.isEmpty_iff] at hempty
      dsimp only
      split
      · next hpiece => simp [hempty, hany.mp hpiece, eq_comm]
      · next hpiece => simp [mt hany.mpr hpiece]

/-- `parse` reads a text exactly when it is empty or has no empty piece. -/
theorem parse_succeeds_iff : (∃ p, parse text = .ok p) ↔ text = "" ∨ ¬ IsPiece text "" := by
  have hfails : (∃ fault, parse text = .error fault) ↔ text ≠ "" ∧ IsPiece text "" := by
    simp only [parse_eq_error_iff, exists_and_left, exists_eq, and_true]
  rw [Proofs.except_fails_iff] at hfails
  rw [← not_iff_not, hfails]
  tauto

/-- `text` tells `Readable` paths apart. -/
theorem text_inj (hp : p.Readable) (hq : q.Readable) : p.text = q.text ↔ p = q := by
  constructor
  · intro h
    have hparse : parse q.text = .ok p := parse_eq_ok_iff.mpr ⟨hp, h⟩
    rw [parse_text hq] at hparse
    exact (Except.ok.inj hparse).symm
  · exact congrArg Path.text

/-- A segment with a dot in it is two segments in the text. -/
example : Path.text ⟨["a.b"]⟩ = Path.text ⟨["a", "b"]⟩ := rfl

/-! ### Paths as JSON -/

/-- `ofJson` reads a value as the `Readable` path that is written so. -/
theorem ofJson_eq_ok_iff {v : Json} : ofJson v = .ok p ↔ p.Readable ∧ v = p.toJson := by
  have hstring : ofJson v = .ok p ↔ ∃ text, v = .str text ∧ parse text = .ok p := by
    cases v with
    | str text =>
        simp only [ofJson, Json.asString?, Json.str.injEq, exists_eq_left']
        cases parse text with
        | ok q => simp
        | error fault => simp
    | _ => simp [ofJson, Json.asString?]
  rw [hstring, toJson]
  constructor
  · rintro ⟨text, rfl, h⟩
    obtain ⟨hp, rfl⟩ := parse_eq_ok_iff.mp h
    exact ⟨hp, rfl⟩
  · rintro ⟨hp, rfl⟩
    exact ⟨p.text, rfl, parse_text hp⟩

/-! ### The two forms -/

/-- Paths and their dotted texts are one for one. `parse` reads a text exactly when it
is empty or nothing empty `IsPiece` of it, and the path has this `text`. Segments that
are not empty and hold no dot are read back from their `text`. So two paths that were
read have one `text` exactly when they are one path, and were read from one text then.
As JSON they are one for one too: `ofJson` reads a value as a path exactly when it is
the `toJson` of the path, and every path that was read from a text is read from its
JSON. -/
theorem dotted_form_bijective :
    (∀ text, (∃ p, parse text = .ok p) ↔ text = "" ∨ ¬ IsPiece text "") ∧
    (∀ text p, parse text = .ok p → p.text = text) ∧
    (∀ segments : List String, (∀ segment ∈ segments, segment ≠ "" ∧ '.' ∉ segment.toList) →
      parse (Path.text ⟨segments⟩) = .ok ⟨segments⟩) ∧
    (∀ text text' p p', parse text = .ok p → parse text' = .ok p' →
      (p.text = p'.text ↔ p = p') ∧ (text = text' ↔ p = p')) ∧
    ∀ v p, ofJson v = .ok p ↔ v = p.toJson ∧ ∃ text, parse text = .ok p := by
  refine ⟨fun text => parse_succeeds_iff, fun text p => text_of_parse, ?segments, ?equal, ?json⟩
  case segments =>
    intro segments hsegments
    exact parse_text (p := ⟨segments⟩) hsegments
  case equal =>
    intro text text' p p' h h'
    -- Both texts are those of the paths that were read.
    have htexts : p.text = p'.text ↔ p = p' :=
      text_inj (readable_of_parse h) (readable_of_parse h')
    rw [← htexts, text_of_parse h, text_of_parse h']
    exact ⟨Iff.rfl, Iff.rfl⟩
  case json =>
    intro v p
    rw [ofJson_eq_ok_iff, readable_iff_exists_parse, and_comm]

/-- `maß.höhe` is a path of two segments, as JSON too, and it is read from this text
only. With a second dot between the segments, or with one behind them, it is none. -/
theorem dotted_form_bijective_height :
    let height : Path := ⟨["maß", "höhe"]⟩
    parse "maß.höhe" = .ok height ∧ height.text = "maß.höhe" ∧ ¬ IsPiece "maß.höhe" "" ∧
    ofJson (.str "maß.höhe") = .ok height ∧
    (∀ text, parse text = .ok height → text = "maß.höhe") ∧
    IsPiece "maß..höhe" "" ∧ (¬ ∃ p, parse "maß..höhe" = .ok p) ∧
    IsPiece "maß.höhe." "" ∧ ¬ ∃ p, parse "maß.höhe." = .ok p := by
  intro height
  obtain ⟨hread, htext, hsegments, hequal, hjson⟩ := dotted_form_bijective
  have hparse : parse "maß.höhe" = .ok height := hsegments ["maß", "höhe"] (by decide)
  have hnone : ¬ IsPiece "maß.höhe" "" :=
    ((hread "maß.höhe").mp ⟨height, hparse⟩).resolve_left (by decide)
  have hbetween : IsPiece "maß..höhe" "" :=
    ⟨by decide, "maß.".toList, ".höhe".toList, rfl, .inr ⟨"maß".toList, rfl⟩,
      .inr ⟨"höhe".toList, rfl⟩⟩
  have hbehind : IsPiece "maß.höhe." "" :=
    ⟨by decide, "maß.höhe.".toList, [], rfl, .inr ⟨"maß.höhe".toList, rfl⟩, .inl rfl⟩
  refine ⟨hparse, htext _ _ hparse, hnone, (hjson _ _).mpr ⟨rfl, _, hparse⟩, ?_, hbetween, ?_,
    hbehind, ?_⟩
  · intro text h
    exact (hequal text "maß.höhe" height height h hparse).2.mpr rfl
  · rw [hread]
    simp [hbetween]
  · rw [hread]
    simp [hbehind]

end EntityRules.Path
