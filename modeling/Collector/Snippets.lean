import Collector.Frames
import Collector.PubSub
import Collector.Dedup
import Mathlib.Data.List.DropRight
import Mathlib.Data.Nat.Find

/-!
# Log snippets of refused input

A refused frame and a refused payload are logged with their first 200 bytes. A
string is sliced by byte offsets, and an offset inside a character panics, which
ends the process. `short` slices at an offset that it first moves down to the
start of a character.

`IsValid` is the library's notion of an offset at which a character starts, or
the text ends.
-/

namespace Collector.Snippets

open Serde
open Connection (SubState)
open Dedup (bytePrefix)

/-- `&source[..count]`; `none` is the panic. -/
def sliceTo (source : String) (count : Nat) : Option String :=
  (bytePrefix count source.toList).map String.ofList

/-- `str::floor_char_boundary`. -/
def floorCharBoundary (source : String) (index : Nat) : Nat :=
  if source.utf8ByteSize ≤ index then source.utf8ByteSize
  else Nat.findGreatest (fun offset => String.Pos.Raw.IsValid source ⟨offset⟩) index

def short (source : String) : Option String := sliceTo source (floorCharBoundary source 16)

/-- The white space that `trim` removes. -/
def isWhiteSpace (char : Char) : Bool :=
  let code := char.toNat
  (9 ≤ code && code ≤ 13) || (0x2000 ≤ code && code ≤ 0x200A) ||
    code ∈ [0x20, 0x85, 0xA0, 0x1680, 0x2028, 0x2029, 0x202F, 0x205F, 0x3000]

def trim (source : String) : String :=
  String.ofList ((source.toList.dropWhile isWhiteSpace).rdropWhile isWhiteSpace)

/-- What a text frame leads to: nothing, a noted PONG, new counters and events to
forward, or a log entry with the error and a snippet of the frame. -/
inductive Handled (δ : Type) where
  | blank
  | pong
  | events (stats : ConnStats) (eventsBuf : List (Event δ))
  | refused (error : Error) (snippet : String)

section Slices

/-- A prefix of the given number of bytes exists if some characters make it up. -/
theorem bytePrefix_isSome_iff (count : Nat) (chars : List Char) :
    (bytePrefix count chars).isSome ↔
      ∃ taken, count = (String.ofList (chars.take taken)).utf8ByteSize := by
  induction chars generalizing count with
  | nil =>
    cases count with
    | zero => exact iff_of_true rfl ⟨0, rfl⟩
    | succ count => simp [bytePrefix]
  | cons char rest inductionHypothesis =>
    have size (taken : Nat) : (String.ofList ((char :: rest).take (taken + 1))).utf8ByteSize =
        char.utf8Size + (String.ofList (rest.take taken)).utf8ByteSize := by
      rw [List.take_succ_cons, ← List.singleton_append, String.ofList_append,
        String.utf8ByteSize_append, ← String.singleton_eq_ofList, String.utf8ByteSize_singleton]
    cases count with
    | zero => exact iff_of_true rfl ⟨0, rfl⟩
    | succ count =>
      rw [bytePrefix]
      split
      · rename_i fits
        rw [Option.isSome_map, inductionHypothesis]
        constructor
        · rintro ⟨taken, same⟩
          refine ⟨taken + 1, ?_⟩
          rw [size]
          omega
        · rintro ⟨taken, same⟩
          cases taken with
          | zero => exact absurd same (by simp)
          | succ taken =>
            rw [size] at same
            exact ⟨taken, by omega⟩
      · rename_i tooLong
        refine iff_of_false Bool.false_ne_true ?_
        rintro ⟨taken, same⟩
        cases taken with
        | zero => exact absurd same (by simp)
        | succ taken =>
          rw [size] at same
          omega

/-- A slice panics exactly when its end is inside a character or beyond the text. -/
theorem sliceTo_isSome_iff (source : String) (count : Nat) :
    (sliceTo source count).isSome ↔ String.Pos.Raw.IsValid source ⟨count⟩ := by
  rw [sliceTo, Option.isSome_map, bytePrefix_isSome_iff,
    String.Pos.Raw.isValid_iff_exists_take_toList]

/-- The floor of an offset is never inside a character. -/
theorem isValid_floorCharBoundary (source : String) (index : Nat) :
    String.Pos.Raw.IsValid source ⟨floorCharBoundary source index⟩ := by
  unfold floorCharBoundary
  split
  · exact String.Pos.Raw.isValid_rawEndPos
  · exact Nat.findGreatest_spec (P := fun offset => String.Pos.Raw.IsValid source ⟨offset⟩)
      (Nat.zero_le index) String.Pos.Raw.isValid_zero

/-- So `short` never panics. -/
theorem short_isSome (source : String) : (short source).isSome :=
  (sliceTo_isSome_iff source _).mpr (isValid_floorCharBoundary source 16)

end Slices

section Paths

variable {δ : Type} [Decimal δ]

/-- A text frame in `run_session`; `none` is a panic. -/
def onText (finite : String → Bool) (sub : SubState) (stats : ConnStats)
    (eventsBuf : List (Event δ)) (source : String) : Option (Handled δ) :=
  let stripped := trim source
  if stripped = "" then some .blank
  else if stripped = "PONG" then some .pong
  else match handleText finite stripped sub stats eventsBuf with
    | .ok (stats, eventsBuf) => some (.events stats eventsBuf)
    | .error error => (sliceTo stripped (min stripped.utf8ByteSize 200)).map (.refused error)

/-- The preview of a refused payload; `none` is a panic. -/
def preview (payload : String) : Option String :=
  if payload.utf8ByteSize ≤ 200 then some payload
  else (sliceTo payload 200).map (· ++ "…")

/-- What `subscribe_once` makes of a payload: an event, or a warning with the
error and a preview. `none` is a panic. -/
def onPayload (payload : String) : Option (Event δ ⊕ (Error × String)) :=
  match fromStr Event.deserialize payload with
  | .ok event => some (.inl event)
  | .error error => (preview payload).map fun shown => .inr (error, shown)

/-- The text has at most 200 bytes, or a character starts after 200 of them. -/
def Sliceable (source : String) : Prop :=
  source.utf8ByteSize ≤ 200 ∨ String.Pos.Raw.IsValid source ⟨200⟩

theorem preview_isSome_iff (payload : String) : (preview payload).isSome ↔ Sliceable payload := by
  unfold preview Sliceable
  split
  · rename_i fits
    exact iff_of_true rfl (Or.inl fits)
  · rename_i long
    rw [Option.isSome_map, sliceTo_isSome_iff]
    exact (or_iff_right long).symm

/-- The snippet of a frame is cut where the frame ends or after 200 bytes. -/
theorem snippet_isSome_iff (stripped : String) :
    (sliceTo stripped (min stripped.utf8ByteSize 200)).isSome ↔ Sliceable stripped := by
  rw [sliceTo_isSome_iff, Sliceable]
  rcases Nat.le_total stripped.utf8ByteSize 200 with fits | long
  · rw [Nat.min_eq_left fits]
    exact iff_of_true String.Pos.Raw.isValid_rawEndPos (Or.inl fits)
  · rw [Nat.min_eq_right long]
    constructor
    · exact Or.inr
    · rintro (fits | starts)
      · have exact200 : stripped.utf8ByteSize = 200 := Nat.le_antisymm fits long
        rw [← exact200]
        exact String.Pos.Raw.isValid_rawEndPos
      · exact starts

/-- A refused frame returns to the read loop exactly when its snippet can be cut. -/
theorem onText_isSome_iff {finite : String → Bool} {sub : SubState} {stats : ConnStats}
    {eventsBuf : List (Event δ)} {frame : String} {error : Error}
    (refused : handleText finite (trim frame) sub stats eventsBuf = .error error) :
    (onText finite sub stats eventsBuf frame).isSome ↔ Sliceable (trim frame) := by
  simp only [onText, refused]
  split
  · rename_i blank
    exact iff_of_true rfl (Or.inl (by rw [blank]; decide))
  · split
    · rename_i pong
      exact iff_of_true rfl (Or.inl (by rw [pong]; decide))
    · rw [Option.isSome_map, snippet_isSome_iff]

/-- A refused payload is logged exactly when its preview can be cut. -/
theorem onPayload_isSome_iff {payload : String} {error : Error}
    (refused : (fromStr Event.deserialize payload : Except Error (Event δ)) = .error error) :
    (onPayload payload : Option (Event δ ⊕ (Error × String))).isSome ↔ Sliceable payload := by
  simp only [onPayload, refused, Option.isSome_map]
  exact preview_isSome_iff payload

/-- A refused frame returns to the read loop, and a refused payload is previewed,
exactly when the text has at most 200 bytes or a character starts after 200. -/
theorem refused_input_survives_iff (finite : String → Bool) (sub : SubState) (stats : ConnStats)
    (eventsBuf : List (Event δ)) (frame payload : String) {frameError payloadError : Error}
    (frameRefused : handleText finite (trim frame) sub stats eventsBuf = .error frameError)
    (payloadRefused :
      (fromStr Event.deserialize payload : Except Error (Event δ)) = .error payloadError) :
    ((onText finite sub stats eventsBuf frame).isSome ↔ Sliceable (trim frame)) ∧
      ((onPayload payload : Option (Event δ ⊕ (Error × String))).isSome ↔ Sliceable payload) :=
  ⟨onText_isSome_iff frameRefused, onPayload_isSome_iff payloadRefused⟩

end Paths

/-- A message of a kind that neither reader knows, with a question of some length
before an accent. -/
def headline (length : Nat) : Json :=
  .object [("event_type", .string "new_market"),
    ("question", .string (String.ofList (List.replicate length 'a' ++ ['é'])))]

/-- The text of such a message up to its question. -/
def headlineStart : String := "\x7b\"event_type\":\"new_market\",\"question\":\""

theorem headline_text (length : Nat) :
    (headline length).text =
      headlineStart ++ String.ofList (List.replicate length 'a') ++ "é\"\x7d" := by
  have body : Json.writeBody (List.replicate length 'a' ++ ['é']) =
      List.replicate length 'a' ++ ['é', '"'] := by
    induction length with
    | zero => rfl
    | succ length inductionHypothesis =>
      rw [List.replicate_succ, List.cons_append, Json.writeBody, inductionHypothesis]
      rfl
  apply String.toList_inj.mp
  simp only [headline, headlineStart, Json.text, Json.write, Json.writeMembers, Json.writeString,
    String.toList_ofList, String.toList_append, body, List.cons_append, List.append_assoc]
  rfl

/-- The bytes before the accent. -/
theorem headline_front_size (length : Nat) :
    (headlineStart ++ String.ofList (List.replicate length 'a')).utf8ByteSize = length + 39 := by
  have letters : (String.ofList (List.replicate length 'a')).utf8ByteSize = length := by
    induction length with
    | zero => rfl
    | succ length inductionHypothesis =>
      rw [List.replicate_succ, ← List.singleton_append, String.ofList_append,
        String.utf8ByteSize_append, inductionHypothesis, Nat.add_comm]
      rfl
  have start : headlineStart.utf8ByteSize = 39 := by decide
  rw [String.utf8ByteSize_append, letters, start, Nat.add_comm]

theorem headline_size (length : Nat) : (headline length).text.utf8ByteSize = length + 43 := by
  have ending : "é\"\x7d".utf8ByteSize = 4 := by decide
  rw [headline_text, String.utf8ByteSize_append, headline_front_size, ending]

/-- Neither reader accepts the message. -/
theorem headline_refused (length : Nat) :
    (handleText (fun _ => true) (headline length).text wantsFirst ⟨0, 0, 0, 0⟩ [] :
        Except Error (ConnStats × List (Event PlainDecimal))) =
          .error (.custom "data did not match any variant of untagged enum WireFrame") ∧
      (fromStr Event.deserialize (headline length).text : Except Error (Event PlainDecimal)) =
        .error (.unknownVariant "new_market") := by
  have readable : Json.Readable 1 (headline length) := by
    simp [headline, Json.Readable, Json.ReadableMembers]
  have parsed := (reads_text readable).parse recursionLimit
  rw [if_pos (Nat.le_of_ble_eq_true rfl)] at parsed
  constructor
  · rw [handleText, readFrame, parsed]
    rfl
  · rw [fromStr, parsed]
    rfl

/-- The message begins and ends with a brace, so nothing is trimmed. -/
theorem trim_headline (length : Nat) : trim (headline length).text = (headline length).text := by
  have first : (headline length).text.toList.dropWhile isWhiteSpace =
      (headline length).text.toList := by
    rw [headline_text, String.toList_append, String.toList_append]
    rfl
  have ends : (headline length).text.toList = headlineStart.toList ++
      (List.replicate length 'a' ++ ['é', '"']) ++ ['\x7d'] := by
    simp only [headline_text, String.toList_append, String.toList_ofList, List.append_assoc]
    rfl
  rw [trim, first, ends, List.rdropWhile_concat_neg isWhiteSpace _ _ (by decide), ← ends,
    String.ofList_toList]

/-- With 161 letters before it, the accent begins right behind the 200th byte: both readers
report the message and go on. -/
theorem long_headline_is_logged :
    (headline 161).text.utf8ByteSize = 204 ∧
      (onText (fun _ => true) wantsFirst ⟨0, 0, 0, 0⟩ ([] : List (Event PlainDecimal))
        (headline 161).text).isSome ∧
      (onPayload (headline 161).text : Option (Event PlainDecimal ⊕ (Error × String))).isSome := by
  obtain ⟨frame, payload⟩ := headline_refused 161
  rw [← trim_headline] at frame
  obtain ⟨logged, previewed⟩ := refused_input_survives_iff _ _ _ _ _ _ frame payload
  have sliceable : Sliceable (headline 161).text := by
    right
    rw [headline_text, String.Pos.Raw.isValid_append]
    left
    have ends := String.Pos.Raw.isValid_rawEndPos
      (s := headlineStart ++ String.ofList (List.replicate 161 'a'))
    rwa [String.rawEndPos, headline_front_size] at ends
  rw [trim_headline] at logged
  exact ⟨headline_size 161, logged.mpr sliceable, previewed.mpr sliceable⟩

/-- With 160 letters before it, the accent lies across the 200th byte: the frame
ends the collector, and the payload ends the subscriber. -/
theorem long_headline_panics :
    onText (fun _ => true) wantsFirst ⟨0, 0, 0, 0⟩ ([] : List (Event PlainDecimal))
        (headline 160).text = none ∧
      (onPayload (headline 160).text : Option (Event PlainDecimal ⊕ (Error × String))) = none := by
  obtain ⟨frame, payload⟩ := headline_refused 160
  have unsliceable : ¬ Sliceable (headline 160).text := by
    have front := headline_front_size 160
    rintro (short | inside)
    · rw [headline_size] at short
      exact absurd short (by decide)
    · rw [headline_text, String.Pos.Raw.isValid_append] at inside
      rcases inside with before | ⟨-, after⟩
      · have bounded := before.le_utf8ByteSize
        rw [front] at bounded
        exact absurd bounded (by decide)
      · have offset : (⟨200⟩ : String.Pos.Raw) -
            (headlineStart ++ String.ofList (List.replicate 160 'a')) = ⟨1⟩ := by
          rw [String.Pos.Raw.ext_iff, String.Pos.Raw.byteIdx_sub_string, front]
          rfl
        rw [offset] at after
        revert after
        decide
  rw [← trim_headline] at frame
  rw [← Option.not_isSome_iff_eq_none, ← Option.not_isSome_iff_eq_none, onText_isSome_iff frame,
    onPayload_isSome_iff payload, trim_headline]
  exact ⟨unsliceable, unsliceable⟩

end Collector.Snippets
