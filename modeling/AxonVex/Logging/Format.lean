import AxonVex.Machinery.Placeholders

/-!
# Logging/Format — the placeholders of a log message

    formatImpl(stream, format, pos, value, rest…)
      placeholder ← format.find("{}", pos);  stream << format[pos .. placeholder) << value;
      formatImpl(stream, format, placeholder + 2, rest…)

`formatImpl` goes through the arguments, and through the format by a position that only grows.  The
format is searched, never the stream: so the text of an argument is not looked at again, and the
result is the format with its placeholders replaced one by one (`formats_by_placeholder`).
-/

namespace AxonVex

open Machinery

namespace Logger

/-- `std::string`, as the texts are read here. -/
abbrev Text := List Char

/-- `"\x7b\x7d"`. -/
def placeholderMark : Text := ['{', '}']

/-- `s.substr(pos, count)`; `none` is the exception `std::out_of_range`. -/
def substr (s : Text) (pos count : ℕ) : Option Text :=
  if pos ≤ s.length then some ((s.drop pos).take count) else none

/-- `formatImpl(stream, format, pos, args…)`, with what the arguments write to the stream. -/
def formatImpl (stream format : Text) (pos : ℕ) : List Text → Option Text
  -- no arguments left: the rest of the format as it is
  | [] => (substr format pos format.length).map (stream ++ ·)
  | value :: rest =>
    match Placeholders.find placeholderMark format pos with
    -- more arguments than placeholders
    | none => (substr format pos format.length).map (stream ++ ·)
    | some placeholder =>
      (substr format pos (placeholder - pos)).bind fun piece =>
        formatImpl (stream ++ piece ++ value) format (placeholder + 2) rest

/-- `formatString(format, args…)`. -/
def formatString (format : Text) (args : List Text) : Option Text := formatImpl [] format 0 args

/-- The pieces of a format with its `i`-th placeholder replaced by the `i`-th argument; those that
have none stay as they are. -/
def substitute (pieces : Placeholders.Pieces Char) (args : List Text) : Text :=
  pieces.1 ++ (pieces.2.zipIdx).flatMap fun piece => args[piece.2]?.getD placeholderMark ++ piece.1

/-- The format is cut at its placeholders into these pieces. -/
abbrev CutAt (format : Text) (pieces : Placeholders.Pieces Char) : Prop :=
  Placeholders.Splits '{' '}' format pieces

variable {format stream p q value : Text} {args : List Text} {rest : List Text} {pos : ℕ}

/-! ## The substitution along the arguments -/

/-- Without arguments the pieces are put together again. -/
theorem substitute_nil (pieces : Placeholders.Pieces Char) :
    substitute pieces [] = pieces.1 ++ pieces.2.flatMap (placeholderMark ++ ·) := by
  have hsnd : pieces.2.flatMap (placeholderMark ++ ·) =
      (pieces.2.zipIdx.map Prod.fst).flatMap (placeholderMark ++ ·) := by
    rw [List.zipIdx_map_fst]
  rw [substitute, hsnd, List.flatMap_map]
  rfl

/-- Without placeholders the arguments are not used. -/
theorem substitute_last (p : Text) (args : List Text) : substitute (p, []) args = p :=
  List.append_nil p

/-- The first argument goes to the first placeholder. -/
theorem substitute_cons (p q value : Text) (rest args : List Text) :
    substitute (p, q :: rest) (value :: args) = p ++ value ++ substitute (q, rest) args := by
  rw [substitute, substitute, List.zipIdx_cons, List.flatMap_cons, List.zipIdx_succ,
    List.flatMap_map]
  simp

/-! ## The recursion -/

theorem substr_rest (hpos : pos ≤ format.length) :
    substr format pos format.length = some (format.drop pos) := by
  rw [substr, if_pos hpos, List.take_of_length_le]
  rw [List.length_drop]
  omega

/-- **From any position on**: what is written behind the stream is the rest of the format, with its
placeholders replaced by the arguments. -/
theorem formatImpl_eq {pieces : Placeholders.Pieces Char} (hpos : pos ≤ format.length)
    (h : CutAt (format.drop pos) pieces) :
    formatImpl stream format pos args = some (stream ++ substitute pieces args) := by
  induction args generalizing stream pos pieces with
  | nil =>
    rw [formatImpl, substr_rest hpos, Option.map_some, substitute_nil, h.join]
    rfl
  | cons value args ih =>
    obtain ⟨p, rest⟩ := pieces
    cases rest with
    | nil =>
      have hfind : Placeholders.find placeholderMark format pos = none := h.find_none
      have hp : format.drop pos = p := by simpa using h.join
      rw [formatImpl, hfind, substitute_last, ← hp]
      exact congrArg (Option.map (stream ++ ·)) (substr_rest hpos)
    | cons q rest =>
      have hfind : Placeholders.find placeholderMark format pos = some (pos + p.length) :=
        h.find_some (by decide) hpos
      have hpiece : substr format pos (pos + p.length - pos) = some p := by
        rw [substr, if_pos hpos, Nat.add_sub_cancel_left, h.take]
      have hnext : pos + p.length + 2 ≤ format.length := by
        have hlength := congrArg List.length h.join
        rw [List.length_drop, List.flatMap_cons] at hlength
        simp only [List.length_append, List.length_cons, List.length_nil] at hlength
        omega
      rw [formatImpl, hfind]
      change (substr format pos (pos + p.length - pos)).bind _ = _
      rw [hpiece, Option.bind_some, ih hnext h.drop, substitute_cons, List.append_assoc,
        List.append_assoc, List.append_assoc]

/-- **The result is the format with its placeholders replaced.**  A format is cut at its placeholders
in one way; between its pieces stand the arguments, as far as there are any. -/
theorem formats_by_placeholder (format : Text) (args : List Text) :
    (∃! pieces, CutAt format pieces) ∧
      ∀ pieces, CutAt format pieces → formatString format args = some (substitute pieces args) := by
  refine ⟨Placeholders.existsUnique_splits (by decide) format, fun pieces h => ?_⟩
  exact formatImpl_eq (Nat.zero_le _) h

/-- A brace before a placeholder stays, the text of an argument is not searched, and the placeholder
that is left over stays. -/
example : formatString "a\x7b\x7b\x7db\x7b\x7d\x7b\x7d".toList ["\x7b\x7d".toList, "1".toList] =
    some "a\x7b\x7b\x7db1\x7b\x7d".toList := by
  decide +kernel

end Logger

end AxonVex
