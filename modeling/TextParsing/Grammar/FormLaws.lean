import TextParsing.Grammar.Forms
import TextParsing.Grammar.Meaning

/-!
What the derived grammars mean: each is the parser of the same name, run on the parts and with its
target made into a value.
-/

namespace TextParsing.Grammar

variable {n k : Nat} {depth : Nat} {rules : Fin n → Parser Location Value}
  {h : Fin k → Parser Location Value} {a b left right side f s o : Grammar n k}

theorem toParser_map (g : Value → Value) :
    (a.map g).toParser .commits depth rules h = (a.toParser .commits depth rules h).map g := rfl

theorem toParser_filter (test : Value → Bool) :
    (a.filter test).toParser .commits depth rules h =
      (a.toParser .commits depth rules h).filter test :=
  (Parser.filter_eq_filterMap ..).symm

theorem toParser_bind (next : Value → Grammar n k) :
    (a.bind next).toParser .commits depth rules h =
      (a.toParser .commits depth rules h).bind fun v =>
        (next v).toParser .commits depth rules h := rfl

theorem toParser_fail (d : String) :
    (fail d : Grammar n k).toParser .commits depth rules h = .fail d := rfl

theorem toParser_skip :
    a.skip.toParser .commits depth rules h =
      (a.toParser .commits depth rules h).skip.map fun _ => .unit := by
  simp only [skip, toParser_map, Parser.skip, Parser.map_map]

theorem toParser_seq :
    (a.seq b).toParser .commits depth rules h =
      (Parser.seq (a.toParser .commits depth rules h) (b.toParser .commits depth rules h)).map
        fun (v, w) => .pair v w := by
  rw [Parser.seq, Parser.map_andThen]
  rfl

theorem toParser_keepLeft :
    (a.keepLeft b).toParser .commits depth rules h =
      .keepLeft (a.toParser .commits depth rules h) (b.toParser .commits depth rules h) := rfl

theorem toParser_keepRight :
    (a.keepRight b).toParser .commits depth rules h =
      .keepRight (a.toParser .commits depth rules h) (b.toParser .commits depth rules h) := rfl

theorem toParser_between :
    (between left a right).toParser .commits depth rules h =
      .between (left.toParser .commits depth rules h) (a.toParser .commits depth rules h)
        (right.toParser .commits depth rules h) := by
  ext c
  simp [between, toParser_keepLeft, toParser_keepRight, Parser.keepLeft, Parser.keepRight,
    Parser.andThen, Parser.between, Parse.spanning]

theorem toParser_surrounded :
    (a.surrounded side).toParser .commits depth rules h =
      (a.toParser .commits depth rules h).surrounded (side.toParser .commits depth rules h) :=
  toParser_between

theorem toParser_apply (g : Value.Unary) :
    (apply g f a).toParser .commits depth rules h =
      .apply ((f.toParser .commits depth rules h).map fun v w => g v w none)
        (a.toParser .commits depth rules h) := by
  rw [Parser.apply, Parser.andThen_map_left]
  rfl

theorem toParser_applyWithRange (g : Value.Unary) :
    (applyWithRange g f a).toParser .commits depth rules h =
      .applyWithRange ((f.toParser .commits depth rules h).map fun v w r => g v w (some r))
        (a.toParser .commits depth rules h) := by
  rw [Parser.applyWithRange, Parser.andThen_map_left]
  rfl

theorem toParser_concat :
    (a.concat b).toParser .commits depth rules h =
      (Parser.concat ((a.toParser .commits depth rules h).map Value.flat)
        ((b.toParser .commits depth rules h).map Value.flat)).map .text := by
  rw [Parser.concat, Parser.andThen_map_left, Parser.andThen_map_right, Parser.map_andThen]
  rfl

theorem toParser_optional :
    a.optional.toParser .commits depth rules h =
      (a.toParser .commits depth rules h).optional.map Value.ofOption := by
  ext c
  simp only [optional, toParser, Recorder.watch_commits, toParser_map, Parser.withDefault,
    Parser.optional, Parser.map, Reply.recover, Reply.handle_map, Reply.map_handle]
  rfl

theorem toParser_orEmpty :
    a.orEmpty.toParser .commits depth rules h =
      ((a.toParser .commits depth rules h).map Value.flat).orEmpty.map .text := by
  ext c
  simp only [orEmpty, toText, toParser, Recorder.watch_commits, toParser_map, Parser.orEmpty,
    Parser.withDefault, Parser.map, Reply.recover, Reply.handle_map, Reply.map_handle]
  rfl

theorem toParser_skipMany :
    a.skipMany.toParser .commits depth rules h =
      (a.toParser .commits depth rules h).skipMany.map fun _ => .unit := by
  simp only [skipMany, toParser_skip, toParser, Recorder.watch_commits, Parser.skipMany,
    Parser.skip, Parser.map_map]

theorem toParser_skipMany1 :
    a.skipMany1.toParser .commits depth rules h =
      (a.toParser .commits depth rules h).skipMany1.map fun _ => .unit := by
  simp only [skipMany1, toParser_skip, toParser, Recorder.watch_commits, Parser.skipMany1,
    Parser.skip, Parser.map_map]

theorem toParser_concatMany :
    a.concatMany.toParser .commits depth rules h =
      ((a.toParser .commits depth rules h).map Value.flat).concatMany.map .text := by
  simp only [concatMany, toText, toParser_map, toParser, Recorder.watch_commits, Parser.concatMany,
    Parser.many_map, Parser.map_map, Value.toText, Value.flat, Value.flatList_eq_flatten]

theorem toParser_concatMany1 :
    a.concatMany1.toParser .commits depth rules h =
      ((a.toParser .commits depth rules h).map Value.flat).concatMany1.map .text := by
  simp only [concatMany1, toText, toParser_map, toParser, Recorder.watch_commits,
    Parser.concatMany1, Parser.many1_map, Parser.map_map, Value.toText, Value.flat,
    Value.flatList_eq_flatten]

theorem toParser_firstOf (bs : List (Grammar n k)) :
    (firstOf a bs).toParser .commits depth rules h =
      .firstOf (a.toParser .commits depth rules h)
        (bs.map fun b => b.toParser .commits depth rules h) := by
  induction bs generalizing a with
  | nil => rfl
  | cons b bs ih =>
    simp only [firstOf, toParser, Recorder.watch_commits, ih, List.map_cons, Parser.firstOf]

theorem toParser_letter :
    (letter : Grammar n k).toParser .commits depth rules h = Parser.letter.map .char := by
  ext c
  simp only [letter, toParser, Recorder.watch_commits, Parser.letter, Parser.orElse, Parser.run_map,
    Reply.recover, Reply.handle_map, Reply.map_handle]
  rfl

theorem toParser_char_skipMany1 (s : CharClass) :
    (char s : Grammar n k).skipMany1.toParser .commits depth rules h =
      (Parser.char s).skipMany1.map fun _ => .unit := by
  rw [toParser_skipMany1, toParser, Parser.skipMany1, Parser.many1_map, Parser.skip_map]
  rfl

theorem toParser_run1 (s : CharClass) :
    (run1 s : Grammar n k).toParser .commits depth rules h = (Parser.run1 s).map .text := by
  rw [run1, toParser, Recorder.watch_commits, toParser_char_skipMany1, Parser.lexeme_map]
  rfl

theorem toParser_optional_char (s : CharClass) :
    (char s : Grammar n k).optional.toParser .commits depth rules h =
      (Parser.char s).optional.map fun x => .ofOption (x.map .char) := by
  rw [toParser_optional, toParser, Parser.optional_map, Parser.map_map]

theorem toParser_signedInteger :
    (signedInteger : Grammar n k).toParser .commits depth rules h =
      Parser.signedInteger.map .text := by
  rw [signedInteger, toParser, Recorder.watch_commits, toParser_seq, Parser.lexeme_map,
    toParser_optional_char, toParser_char_skipMany1, Parser.lexeme_seq_map]
  rfl

theorem toParser_unsignedDecimal :
    (unsignedDecimal : Grammar n k).toParser .commits depth rules h =
      Parser.unsignedDecimal.map .text := by
  rw [unsignedDecimal, toParser, Recorder.watch_commits, toParser_seq, Parser.lexeme_map,
    toParser_char_skipMany1, toParser_seq, toParser_char_skipMany1, Parser.lexeme_seq_map,
    toParser, Parser.seq_map,
    Parser.lexeme_seq_map_right]
  rfl

theorem toParser_signedDecimal :
    (signedDecimal : Grammar n k).toParser .commits depth rules h =
      Parser.signedDecimal.map .text := by
  rw [signedDecimal, toParser, Recorder.watch_commits, toParser_seq, Parser.lexeme_map,
    toParser_optional_char, toParser_unsignedDecimal, Parser.lexeme_seq_map]
  rfl

end TextParsing.Grammar
