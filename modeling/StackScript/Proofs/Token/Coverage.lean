import Mathlib.Logic.Function.Iterate
import StackScript.Proofs.Token.Layout

/-!
# The scanner loses nothing

A source is a row of segments, each of which is layout and the characters of a token behind it, and
layout at the end. The tokens stand where their characters do, so that the places of the tokens and
the layout between them make up the whole source.
-/

namespace StackScript

open Lexeme

/-- Layout, and the characters of a lexeme behind it. -/
structure Segment where
  gap : List Char
  text : List Char
  lexeme : Lexeme

namespace Segment

/-- The characters of some segments, and those behind them. -/
def join : List Segment → List Char → List Char
  | [], stop => stop
  | segment :: segments, stop => segment.gap ++ (segment.text ++ join segments stop)

/-- The token of a segment at a byte offset. -/
def token (offset : Nat) (segment : Segment) : Token :=
  ⟨segment.lexeme, ⟨offset + Text.byteLength segment.gap,
    offset + Text.byteLength segment.gap + Text.byteLength segment.text⟩⟩

/-- The tokens of some segments from a byte offset on. -/
def tokens (offset : Nat) : List Segment → List Token
  | [] => []
  | segment :: segments => segment.token offset :: tokens (segment.token offset).span.stop segments

/-- The characters up to the end of a segment. -/
def behind (front : List Char) (segment : Segment) : List Char :=
  front ++ (segment.gap ++ segment.text)

theorem join_cons (front : List Char) (segment : Segment) (segments : List Segment)
    (stop : List Char) :
    front ++ join (segment :: segments) stop = segment.behind front ++ join segments stop := by
  simp [join, behind]

theorem join_append (front back : List Segment) (stop : List Char) :
    join (front ++ back) stop = join front (join back stop) := by
  induction front with
  | nil => rfl
  | cons segment front ih => rw [List.cons_append, join, join, ih]

theorem join_eq_append (segments : List Segment) (stop : List Char) :
    join segments stop = join segments [] ++ stop := by
  induction segments with
  | nil => rfl
  | cons segment segments ih =>
      rw [join, join, ih]
      simp only [List.append_assoc]

theorem tokens_append (front back : List Segment) (offset : Nat) :
    tokens offset (front ++ back) =
      tokens offset front ++ tokens (offset + Text.byteLength (join front [])) back := by
  induction front generalizing offset with
  | nil => rfl
  | cons segment front ih =>
      have hstop : (segment.token offset).span.stop + Text.byteLength (join front []) =
          offset + Text.byteLength (join (segment :: front) []) := by
        simp only [token, join, Text.byteLength_append]
        omega
      rw [List.cons_append, tokens, tokens, ih, hstop, List.cons_append]

theorem stop_token (front : List Char) (segment : Segment) :
    (segment.token (Text.byteLength front)).span.stop = Text.byteLength (segment.behind front) := by
  simp [token, behind, Nat.add_assoc]

/-- The text of a segment lies under its token. -/
theorem slice?_token (front : List Char) (segment : Segment) (segments : List Segment)
    (stop : List Char) :
    Text.slice? (front ++ join (segment :: segments) stop)
      (segment.token (Text.byteLength front)).span = some segment.text := by
  have hslice := Text.slice?_append (front ++ segment.gap) segment.text (join segments stop)
  rwa [List.append_assoc, Text.byteLength_append] at hslice

variable [Text.Alphabet]

/-- Each segment is layout and the characters that make its lexeme in front of what follows. -/
def Row : List Segment → List Char → Prop
  | [], _ => True
  | segment :: segments, stop =>
    Layout false segment.gap ∧ Makes segment.text segment.lexeme (join segments stop) ∧
      Row segments stop

theorem Row.of_append {front back : List Segment} {stop : List Char} (h : Row (front ++ back) stop) :
    Row front (join back stop) ∧ Row back stop := by
  induction front with
  | nil => exact ⟨trivial, h⟩
  | cons segment front ih =>
      rw [List.cons_append, Row, join_append] at h
      obtain ⟨hgap, hmakes, hrow⟩ := h
      exact ⟨⟨hgap, hmakes, (ih hrow).1⟩, (ih hrow).2⟩

/-- Every text is a row of segments, and layout at the end. -/
theorem exists_row (cs : List Char) :
    ∃ segments stop, cs = join segments stop ∧ Row segments stop ∧ Layout true stop := by
  obtain hlayout | ⟨gap, others, rfl, hgap, hstarts⟩ := layout_or_starts cs
  · exact ⟨[], cs, rfl, trivial, hlayout⟩
  · obtain ⟨text, lexeme, rest, rfl, hmakes⟩ := hstarts.makes
    have hpos : 0 < text.length := List.length_pos_iff.mpr hmakes.ne_nil
    obtain ⟨segments, stop, rfl, hrow, hlayout⟩ := exists_row rest
    exact ⟨⟨gap, text, lexeme⟩ :: segments, stop, rfl, ⟨hgap, hmakes, hrow⟩, hlayout⟩
termination_by cs.length
decreasing_by
  subst_vars
  simp only [List.length_append]
  omega

theorem Row.scan {segments : List Segment} {stop : List Char} (h : Row segments stop)
    (hs : Layout true stop) : scan (join segments stop) = segments.map lexeme := by
  induction segments with
  | nil => exact hs.scan
  | cons segment segments ih =>
      obtain ⟨hgap, hmakes, hrow⟩ := h
      rw [join, scan_layout hgap, hmakes.scan, ih hrow, List.map_cons]

/-- The tokens of a row are those of its segments. -/
theorem Row.tokens_eq {segments : List Segment} {stop : List Char} (h : Row segments stop)
    (hs : Layout true stop) (offset : Nat) :
    (Cursor.mk offset (join segments stop)).tokens = tokens offset segments := by
  induction segments generalizing offset with
  | nil => exact Cursor.tokens_of_none (Cursor.next?_of_layout hs offset)
  | cons segment segments ih =>
      obtain ⟨hgap, hmakes, hrow⟩ := h
      rw [join, Cursor.tokens_of_some (Cursor.next?_of_makes hgap hmakes offset), ih hrow]
      rfl

end Segment

section

variable [Text.Alphabet]

/-- From a byte offset on, layout and tokens take turns up to the end of a text. Each token would be
read alone from its characters as it is read where it stands. -/
inductive Tiled (cs : List Char) : (offset : Nat) → List Token → Prop
  | layout {offset : Nat} {gap : List Char}
    (hslice : Text.slice? cs ⟨offset, Text.byteLength cs⟩ = some gap) (hgap : Layout true gap) :
    Tiled cs offset []
  | token {offset : Nat} {gap text : List Char} {token : Token} {tokens : List Token}
    (hbehind : offset ≤ token.span.start) (hnonempty : token.span.start < token.span.stop)
    (hslice : Text.slice? cs ⟨offset, token.span.start⟩ = some gap) (hgap : Layout false gap)
    (htext : Text.slice? cs token.span = some text)
    (halone : (Cursor.ofSource (String.ofList text)).tokens =
      [⟨token.lexeme, ⟨0, Text.byteLength text⟩⟩])
    (h : Tiled cs token.span.stop tokens) : Tiled cs offset (token :: tokens)

theorem Tiled.le_start {cs : List Char} {offset : Nat} {tokens : List Token}
    (h : Tiled cs offset tokens) : ∀ token ∈ tokens, offset ≤ token.span.start := by
  induction h with
  | layout => exact nofun
  | token hbehind hnonempty _ _ _ _ _ ih =>
      intro other hm
      obtain rfl | hm := List.mem_cons.mp hm
      · exact hbehind
      · exact Nat.le_trans hbehind (Nat.le_trans (Nat.le_of_lt hnonempty) (ih other hm))

theorem Tiled.pairwise {cs : List Char} {offset : Nat} {tokens : List Token}
    (h : Tiled cs offset tokens) :
    tokens.Pairwise fun first second => first.span.stop ≤ second.span.start := by
  induction h with
  | layout => exact .nil
  | token _ _ _ _ _ _ h ih => exact .cons h.le_start ih

/-- The characters of a lexeme alone are one token. -/
theorem Lexeme.Makes.tokens_alone {text rest : List Char} {lexeme : Lexeme}
    (h : Makes text lexeme rest) : (Cursor.ofSource (String.ofList text)).tokens =
      [⟨lexeme, ⟨0, Text.byteLength text⟩⟩] := by
  have halone : Makes text lexeme [] := h.agrees (.of_ends nofun) fun _ => rfl
  have hgap : Layout false [] := .nil
  have hnext := Cursor.next?_of_makes hgap halone 0
  rw [List.nil_append, List.append_nil] at hnext
  have hend : (Cursor.mk (0 + Text.byteLength [] + Text.byteLength text) []).tokens = [] :=
    Cursor.tokens_of_none (Cursor.next?_of_layout .nil _)
  rw [Cursor.ofSource, String.toList_ofList, Cursor.tokens_of_some hnext, hend]
  simp

theorem Segment.Row.tiled {segments : List Segment} {stop : List Char} (h : Row segments stop)
    (hs : Layout true stop) (front : List Char) :
    Tiled (front ++ join segments stop) (Text.byteLength front)
      (tokens (Text.byteLength front) segments) := by
  induction segments generalizing front with
  | nil =>
      have hslice := Text.slice?_append front stop []
      rw [List.append_nil, ← Text.byteLength_append] at hslice
      exact .layout hslice hs
  | cons segment segments ih =>
      obtain ⟨hgap, hmakes, hrow⟩ := h
      have hrest := ih hrow (segment.behind front)
      rw [← join_cons, ← stop_token] at hrest
      exact .token (Nat.le_add_right _ _)
        (Nat.lt_add_of_pos_right (Text.byteLength_pos hmakes.ne_nil))
        (Text.slice?_append front segment.gap _) hgap (slice?_token front segment segments stop)
        hmakes.tokens_alone hrest

namespace Cursor

/-- What is seen from a place: the next lexeme and where it stands, or nothing at the end of the
source. -/
def look (cursor : Cursor) : Option Lexeme × Span :=
  match cursor.next? with
  | some (token, _) => (some token.lexeme, token.span)
  | none => (none, ⟨cursor.skipLayout.offset, cursor.skipLayout.offset⟩)

/-- The place behind what is seen. -/
def pass (cursor : Cursor) : Cursor :=
  match cursor.next? with
  | some (_, stop) => stop
  | none => cursor.skipLayout

/-- Behind the last token, the end of the source is seen again and again. -/
theorem look_pass_of_layout {cs : List Char} (h : Layout true cs) (offset n : Nat) :
    (pass^[n] ⟨offset, cs⟩).look =
      (none, ⟨offset + Text.byteLength cs, offset + Text.byteLength cs⟩) := by
  induction n generalizing offset cs with
  | zero =>
      rw [Function.iterate_zero_apply, look, next?_of_layout h, skipLayout_of_layout h]
  | succ n ih =>
      have hpass : pass ⟨offset, cs⟩ = ⟨offset + Text.byteLength cs, []⟩ := by
        rw [pass, next?_of_layout h, skipLayout_of_layout h]
      rw [Function.iterate_succ_apply, hpass, ih .nil]
      rfl

end Cursor

/-- Tokens are seen in turn, and then the end of the source. -/
theorem Segment.Row.look_pass {segments : List Segment} {stop : List Char} (h : Row segments stop)
    (hs : Layout true stop) (offset n : Nat) :
    (Cursor.pass^[n] ⟨offset, join segments stop⟩).look =
      ((tokens offset segments)[n]?.map Token.lexeme,
        ((tokens offset segments)[n]?.map Token.span).getD
          ⟨offset + Text.byteLength (join segments stop),
            offset + Text.byteLength (join segments stop)⟩) := by
  induction segments generalizing offset n with
  | nil => exact Cursor.look_pass_of_layout hs offset n
  | cons segment segments ih =>
      obtain ⟨hgap, hmakes, hrow⟩ := h
      have hnext := Cursor.next?_of_makes hgap hmakes offset
      cases n with
      | zero =>
          rw [Function.iterate_zero_apply, join, Cursor.look, hnext]
          rfl
      | succ n =>
          have hpass : Cursor.pass ⟨offset, join (segment :: segments) stop⟩ =
              ⟨(segment.token offset).span.stop, join segments stop⟩ := by
            rw [join, Cursor.pass, hnext]
            rfl
          have hlength : offset + Text.byteLength (join (segment :: segments) stop) =
              (segment.token offset).span.stop + Text.byteLength (join segments stop) := by
            simp only [join, token, Text.byteLength_append]
            omega
          rw [Function.iterate_succ_apply, hpass, ih hrow, hlength]
          rfl

/-- Reading on and on gives the tokens of a source in turn and then its end for ever. The tokens do
not overlap, and with the layout between them they make up the source. -/
theorem Cursor.tokens_tile_source (source : String) :
    let tokens := (ofSource source).tokens
    (∀ n, (pass^[n] (ofSource source)).look = (tokens[n]?.map Token.lexeme,
      (tokens[n]?.map Token.span).getD ⟨source.utf8ByteSize, source.utf8ByteSize⟩)) ∧
    Tiled source.toList 0 tokens ∧
    tokens.Pairwise fun first second => first.span.stop ≤ second.span.start := by
  obtain ⟨segments, stop, hjoin, hrow, hs⟩ := Segment.exists_row source.toList
  have hsource : ofSource source = ⟨0, Segment.join segments stop⟩ := by rw [ofSource, hjoin]
  have hsize : source.utf8ByteSize = 0 + Text.byteLength (Segment.join segments stop) := by
    rw [← Text.byteLength_toList, hjoin, Nat.zero_add]
  have htiled : Tiled source.toList 0 (Segment.tokens 0 segments) := by
    rw [hjoin]
    exact hrow.tiled hs []
  dsimp only
  rw [hsource, hrow.tokens_eq hs, hsize]
  exact ⟨hrow.look_pass hs 0, htiled, htiled.pairwise⟩

end

/-- A name with a letter of two bytes, and a comment that ends with the source. -/
theorem Cursor.tokens_tile_source_accents :
    (ofSource "né // été").tokens = [⟨.name "né", ⟨0, 3⟩⟩] ∧
      Tiled "né // été".toList 0 (ofSource "né // été").tokens := by
  have hname : (ofSource "né // été").next? =
      some (⟨.name "né", ⟨0, 3⟩⟩, ⟨3, " // été".toList⟩) := rfl
  have hend : (Cursor.mk 3 " // été".toList).next? = none := rfl
  refine ⟨?_, (tokens_tile_source "né // été").2.1⟩
  rw [tokens_of_some hname, tokens_of_none hend]

end StackScript
