import KeypadCalc.Batch.Arguments
import KeypadCalc.Proofs.Outcome
import KeypadCalc.Proofs.Text.Ending

/-!
# KeypadCalc — expressions among arguments

An argument goes through the look at options first, and `Word.isPlain` tells which arguments come out
of it as expressions (`ofArgument_eq_plain_iff`): those with a dash in front mostly do not, though an
expression may well begin with the sign of its first operand. The expressions of a call are some of
its arguments, and not all of them where one is not plain (`plains_sublist`, `expressions_take`).

The option for the length may stand in front of plain expressions or behind them, and in front of the
separator with any expressions behind it: the call is the same, and so is what is wrong with it
(`ofArguments_append_of_isPlain`, `ofArguments_of_isPlain_append`, `ofArguments_separator`).
-/

namespace KeypadCalc

namespace Batch

/-! ## Which arguments are expressions -/

namespace Switch

theorem mem_names_of_ofName? {name : String} {s : Switch} (h : ofName? name = some s) :
    name ∈ names.map Prod.fst := by
  obtain ⟨before, after, hsplit, -⟩ := List.lookup_eq_some_iff.1 h
  exact List.mem_map.2 ⟨(name, s), by rw [hsplit]; simp, rfl⟩

end Switch

namespace Word

/-- An argument that begins with the name of a long option, or with the start of one, and goes on
with a value if it goes on. -/
def namesOption (argument : String) : Bool :=
  "--".toList.isPrefixOf argument.toList &&
    !(Switch.completions (cutAtEquals argument).1).isEmpty

/-- An argument that is an expression: one without a dash in front, a lone dash, a negative number,
and what holds a space and does not begin as an option does. -/
def isPlain (argument : String) : Bool :=
  match argument.toList with
  | '-' :: rest =>
    rest.isEmpty || isNegativeNumber argument.toList ||
      (rest.contains ' ' && rest.head? != some 'h' && !namesOption argument)
  | _ => true

/-- An argument is cut where its first equals sign stands. -/
theorem toList_cutAtEquals (argument : String) :
    (cutAtEquals argument).1.toList = argument.toList.takeWhile (· != '=') := by
  rw [cutAtEquals]
  cases h : argument.toList.dropWhile (· != '=') with
  | nil =>
    have hwhole := List.takeWhile_append_dropWhile (p := (· != '=')) (l := argument.toList)
    rw [h, List.append_nil] at hwhole
    exact hwhole.symm
  | cons sign value => exact String.toList_ofList

/-- Behind its dash a negative number has a digit or a point. -/
theorem isDigit_of_isNegativeNumber {c : Char} {rest : List Char}
    (h : isNegativeNumber ('-' :: c :: rest) = true) : Text.isDigit c = true ∨ c = '.' := by
  by_cases hc : Text.isDigit c = true
  · exact .inl hc
  · rw [isNegativeNumber, isDigits, List.takeWhile_cons_of_neg hc,
      List.dropWhile_cons_of_neg hc] at h
    refine .inr ?_
    split at h
    · next hpoint => exact (List.cons.inj hpoint).1
    · exact absurd h Bool.false_ne_true

/-- A dashed argument that names no option is told by its look alone. -/
theorem plain_or_unknown_iff {argument text : String} {looksPlain : Bool} :
    ((if looksPlain then .ok (.plain argument) else .ok (.unknown argument) :
        Except UsageFault Word) = .ok (.plain text)) ↔
      text = argument ∧ looksPlain = true := by
  cases looksPlain with
  | true =>
    constructor
    · intro h
      cases h
      exact ⟨rfl, rfl⟩
    · rintro ⟨rfl, -⟩
      rfl
  | false => exact iff_of_false nofun nofun

theorem ofDashed_eq_plain_iff {argument text : String} :
    ofDashed argument = .ok (.plain text) ↔
      text = argument ∧ (isNegativeNumber argument.toList || argument.toList.contains ' ') = true ∧
        namesOption argument = false := by
  have hcompletions : completions argument = (Switch.completions (cutAtEquals argument).1).map
    fun n => (n.1, .switch n.2 (cutAtEquals argument).2) := rfl
  rw [ofDashed, namesOption, hcompletions]
  cases "--".toList.isPrefixOf argument.toList with
  | false =>
    refine plain_or_unknown_iff.trans (and_congr_right fun _ => ?_)
    exact (and_iff_left rfl).symm
  | true =>
    -- two dashes in front: the word names an option if the start of any name fits, and else is
    -- looked at like any other
    rcases Switch.completions (cutAtEquals argument).1 with _ | ⟨first, _ | ⟨second, others⟩⟩
    · refine plain_or_unknown_iff.trans (and_congr_right fun _ => ?_)
      exact (and_iff_left rfl).symm
    · exact iff_of_false nofun (fun h => Bool.noConfusion h.2.2)
    · exact iff_of_false nofun (fun h => Bool.noConfusion h.2.2)

/-- No name of an option is plain. -/
theorem isPlain_of_mem_names {name : String} (h : name ∈ Switch.names.map Prod.fst) :
    isPlain name = false := by
  revert name
  decide

section Dashed

variable {argument : String} {c : Char} {rest : List Char}

/-- What stands in front of a sign of equality is the name of an option only where the argument
begins as an option does. -/
theorem namesOption_of_mem_names (h : argument.toList = '-' :: c :: rest) (hc : c ≠ 'h')
    (hname : (cutAtEquals argument).1 ∈ Switch.names.map Prod.fst) :
    namesOption argument = true := by
  have hsecond : ∀ name ∈ Switch.names.map Prod.fst,
      name.toList[1]? = some 'h' ∨ name.toList[1]? = some '-' := by decide
  have hcompleted : ∀ name ∈ Switch.names.map Prod.fst,
      (Switch.completions name).isEmpty = false := by decide
  have htext := toList_cutAtEquals argument
  rw [h, List.takeWhile_cons_of_pos (by decide)] at htext
  -- of the two that may stand behind the first dash the letter is excluded
  have hdash : c = '-' := by
    have hletter := hsecond _ hname
    rw [htext, List.getElem?_cons_succ] at hletter
    rw [List.takeWhile_cons] at hletter
    split at hletter
    · exact hletter.elim (fun hh => absurd (Option.some.inj hh) hc) Option.some.inj
    · exact hletter.elim nofun nofun
  rw [namesOption, hcompleted _ hname, h, hdash]
  rfl

/-- What names an option has two dashes in front, and no negative number has. -/
theorem not_isNegativeNumber_of_namesOption (h : argument.toList = '-' :: c :: rest)
    (hoption : namesOption argument = true) : isNegativeNumber argument.toList = false := by
  rw [namesOption, h, Bool.and_eq_true, List.isPrefixOf_iff_prefix] at hoption
  have hdash : c = '-' := (List.cons_prefix_cons.1 (List.cons_prefix_cons.1 hoption.1).2).1.symm
  rw [h, Bool.eq_false_iff]
  intro hnegative
  rcases isDigit_of_isNegativeNumber hnegative with hdigit | hpoint
  · exact absurd (hdash ▸ hdigit) (by decide)
  · exact absurd (hdash.symm.trans hpoint) (by decide)

/-- Behind a dash an argument is plain if it is a negative number, or has a space and asks for
nothing. -/
theorem isPlain_cons (h : argument.toList = '-' :: c :: rest) :
    isPlain argument = (isNegativeNumber argument.toList ||
      (argument.toList.contains ' ' && c != 'h' && !namesOption argument)) := by
  simp only [isPlain, h]
  rfl

end Dashed

/-- **Which arguments are expressions.** -/
theorem ofArgument_eq_plain_iff {argument text : String} :
    ofArgument argument = .ok (.plain text) ↔ text = argument ∧ isPlain argument = true := by
  rw [ofArgument]
  split
  · -- an option by its full name
    next s _ hs =>
    refine iff_of_false nofun fun h => ?_
    rw [isPlain_of_mem_names (Switch.mem_names_of_ofName? hs)] at h
    exact Bool.noConfusion h.2
  · -- the short option for help, with letters behind it
    next letters _ hletters =>
    refine iff_of_false nofun fun h => ?_
    have hplain := h.2
    rw [isPlain_cons hletters, hletters, bne_self_eq_false, Bool.and_false, Bool.false_and,
      Bool.or_false] at hplain
    exact (isDigit_of_isNegativeNumber hplain).elim (absurd · (by decide)) (absurd · (by decide))
  · -- any other dash in front of something
    next c rest hh _ harg =>
    dsimp only
    split
    · next s hs =>
      refine iff_of_false nofun fun h => ?_
      have hoption := namesOption_of_mem_names harg hh (Switch.mem_names_of_ofName? hs)
      have hplain := h.2
      rw [isPlain_cons harg, not_isNegativeNumber_of_namesOption harg hoption, hoption,
        Bool.not_true, Bool.and_false] at hplain
      exact Bool.noConfusion hplain
    · refine ofDashed_eq_plain_iff.trans (and_congr_right fun _ => ?_)
      rw [isPlain_cons harg, bne_iff_ne.2 hh, Bool.and_true]
      cases hoption : namesOption argument with
      | false => exact (and_iff_left rfl).trans (by rw [Bool.not_false, Bool.and_true])
      | true =>
        rw [not_isNegativeNumber_of_namesOption harg hoption, Bool.not_true, Bool.and_false]
        exact iff_of_false nofun nofun
  · -- a lone dash, or none in front
    next hlone =>
    have hplain : isPlain argument = true := by
      rw [isPlain]
      split
      · next rest harg =>
        rcases rest with _ | ⟨c, rest⟩
        · rfl
        · exact (hlone c rest harg).elim
      · rfl
    rw [hplain]
    constructor
    · intro h
      cases h
      exact ⟨rfl, rfl⟩
    · rintro ⟨rfl, -⟩
      rfl

/-- The separator is no plain word, though it names nothing. -/
theorem isPlain_separator : isPlain "--" = false := by
  decide

/-- In front of the separator the words are told one by one. -/
theorem ofArguments_cons {argument : String} (h : argument ≠ "--") (rest : List String) :
    ofArguments (argument :: rest) = (do
      let word ← ofArgument argument
      return word :: (← ofArguments rest)) := by
  rw [ofArguments]
  exact h

/-- Plain arguments come out as expressions, whatever stands behind them. -/
theorem ofArguments_of_isPlain {es : List String} (h : ∀ e ∈ es, isPlain e = true)
    (rest : List String) :
    ofArguments (es ++ rest) = (ofArguments rest).map (es.map .plain ++ ·) := by
  induction es with
  | nil => exact (congrFun Except.map_id _).symm
  | cons e es ih =>
    obtain ⟨he, hes⟩ := List.forall_mem_cons.1 h
    have hne : e ≠ "--" := by
      rintro rfl
      rw [isPlain_separator] at he
      cases he
    rw [List.cons_append, ofArguments_cons hne, ofArgument_eq_plain_iff.2 ⟨rfl, he⟩, ok_bind, ih hes]
    cases ofArguments rest <;> rfl

/-- The expressions among words. -/
def plains (words : List Word) : List String :=
  words.filterMap fun word => match word with
    | .plain text => some text
    | _ => none

/-- The expressions are some of the arguments, and not all of them if there is an argument that is
not plain. -/
theorem plains_sublist {arguments : List String} {words : List Word}
    (h : ofArguments arguments = .ok words) :
    (plains words).Sublist arguments ∧
      ((∃ e ∈ arguments, isPlain e = false) → (plains words).length < arguments.length) := by
  induction arguments generalizing words with
  | nil =>
    cases h
    exact ⟨.slnil, fun ⟨e, he, _⟩ => absurd he List.not_mem_nil⟩
  | cons argument rest ih =>
    by_cases hseparator : argument = "--"
    · -- the separator is dropped, and everything behind it is plain
      subst hseparator
      rw [ofArguments] at h
      cases h
      have hplains : plains (.separator :: rest.map .plain) = rest := by
        rw [plains, List.filterMap_cons_none rfl, List.filterMap_map]
        exact List.filterMap_some
      rw [hplains]
      exact ⟨List.sublist_cons_self _ _, fun _ => Nat.lt_succ_self _⟩
    · rw [ofArguments_cons hseparator] at h
      obtain ⟨word, hword, h⟩ := bind_eq_ok_iff.1 h
      obtain ⟨others, hothers, h⟩ := bind_eq_ok_iff.1 h
      cases h
      obtain ⟨hsub, hless⟩ := ih hothers
      -- a plain argument is kept, and any other shortens the list
      by_cases hplain : isPlain argument = true
      · have hsame := hword.symm.trans (ofArgument_eq_plain_iff.2 ⟨rfl, hplain⟩)
        cases hsame
        refine ⟨hsub.cons_cons argument, fun ⟨e, hmem, he⟩ => Nat.succ_lt_succ (hless ?_)⟩
        rcases List.mem_cons.1 hmem with rfl | hmem
        · exact absurd (hplain.symm.trans he) nofun
        · exact ⟨e, hmem, he⟩
      · have hplains : plains (word :: others) = plains others := by
          cases word with
          | plain text => exact absurd (ofArgument_eq_plain_iff.1 hword).2 hplain
          | _ => rfl
        rw [hplains]
        exact ⟨hsub.cons argument, fun _ => Nat.lt_succ_of_le hsub.length_le⟩

end Word

/-! ## Taking the words of a call -/

section Taking

open Word (plains)

/-- Plain words are taken in their order before what is behind them. -/
theorem take_map_plain (t : Taken) (es : List String) (words : List Word) :
    take t (es.map .plain ++ words) = take (es.foldl Taken.plain t) words := by
  induction es generalizing t with
  | nil => rfl
  | cons e es ih => exact ih (t.plain e)

/-- As long as their stretch is not over, expressions are added to those taken. -/
theorem foldl_plain {t : Taken} (h : t.stretch ≠ .over) (es : List String) :
    (es.foldl Taken.plain t).arguments =
        { t.arguments with expressions := t.arguments.expressions ++ es } ∧
      (es.foldl Taken.plain t).leftOver = t.leftOver := by
  induction es generalizing t with
  | nil => exact ⟨by rw [List.append_nil]; rfl, rfl⟩
  | cons e es ih =>
    -- a stretch that is not over goes on with every plain word
    have hplain : t.plain e =
        { t with
          arguments := { t.arguments with expressions := t.arguments.expressions ++ [e] },
          stretch := .here } := by
      rw [Taken.plain]
      split
      · next hover => exact absurd hover h
      · rfl
    rw [List.foldl_cons, hplain]
    obtain ⟨harguments, hleftOver⟩ := ih (t := { t with
      arguments := { t.arguments with expressions := t.arguments.expressions ++ [e] },
      stretch := .here }) nofun
    refine ⟨harguments.trans ?_, hleftOver⟩
    rw [List.append_assoc]
    rfl

/-- A stretch of plain words that nothing follows is taken as it is. -/
theorem take_plains {t : Taken} (h : t.stretch ≠ .over) (hleftOver : t.leftOver = [])
    (es : List String) :
    take t (es.map .plain) = .ok (.run
      { t.arguments with expressions := t.arguments.expressions ++ es }) := by
  obtain ⟨harguments, hleft⟩ := foldl_plain h es
  rw [← List.append_nil (es.map Word.plain), take_map_plain, take, Taken.finish, hleft, hleftOver,
    harguments]
  rfl

/-- A plain word is taken as an expression, or left over. -/
theorem expressions_plain (t : Taken) (text : String) :
    (t.plain text).arguments.expressions = t.arguments.expressions ∨
      (t.plain text).arguments.expressions = t.arguments.expressions ++ [text] := by
  rw [Taken.plain]
  split
  · exact .inl rfl
  · exact .inr rfl

theorem arguments_separator (t : Taken) : t.separator.arguments = t.arguments := by
  rw [Taken.separator]
  split <;> rfl

theorem expressions_maxLength {t t' : Taken} {value : String} (h : t.maxLength value = .ok t') :
    t'.arguments.expressions = t.arguments.expressions := by
  rw [Taken.maxLength] at h
  split at h <;> cases h
  rfl

theorem helpBefore_ne_run (letters : List Char) (a : Arguments) :
    helpBefore letters ≠ .ok (.run a) := by
  fun_induction helpBefore letters with
  | case1 letters ih => exact ih
  | _ => exact nofun

/-- The expressions of a call are among the words. Induction on the words, of which only a plain one
adds to the expressions. -/
theorem expressions_take {t : Taken} {words : List Word} {a : Arguments}
    (h : take t words = .ok (.run a)) :
    ∃ xs, xs.Sublist (plains words) ∧ a.expressions = t.arguments.expressions ++ xs := by
  fun_induction take t words with
  | case1 t =>
    rw [Taken.finish] at h
    split at h <;> cases h
    exact ⟨[], .slnil, (List.append_nil _).symm⟩
  | case2 t text rest ih =>
    obtain ⟨xs, hsub, hxs⟩ := ih h
    rcases expressions_plain t text with hsame | hmore
    · exact ⟨xs, hsub.cons text, hsame ▸ hxs⟩
    · refine ⟨text :: xs, hsub.cons_cons text, hxs.trans ?_⟩
      rw [hmore, List.append_assoc]
      rfl
  | case3 t rest ih => exact arguments_separator t ▸ ih h
  | case4 t text rest ih => exact ih h
  -- a call for help is none to run
  | case7 t letters => exact absurd h (helpBefore_ne_run letters a)
  | case8 t rest ih => exact ih h
  | case10 t value rest ih =>
    obtain ⟨t', ht', h⟩ := bind_eq_ok_iff.1 h
    exact expressions_maxLength ht' ▸ ih t' h
  | case11 t value rest ih =>
    obtain ⟨t', ht', h⟩ := bind_eq_ok_iff.1 h
    obtain ⟨xs, hsub, hxs⟩ := ih t' h
    exact ⟨xs, hsub.cons value, expressions_maxLength ht' ▸ hxs⟩
  | _ => cases h

end Taking

/-! ## The length option -/

/-- How a call sets the length: not at all, by an argument of its own behind the name of the option,
or behind a sign of equality. -/
inductive LengthOption where
  | unset
  | apart (value : String)
  | joined (value : String)

namespace LengthOption

/-- The arguments in which the option is given. -/
def arguments : LengthOption → List String
  | unset => []
  | apart value => ["--max-length", value]
  | joined value => ["--max-length=" ++ value]

/-- The number that a value writes. -/
def read (value : String) : Except UsageFault (Option Int) :=
  match Text.argumentInt? value with
  | some n => .ok (some n)
  | none => .error (.notAnInteger .maxLength value)

/-- The length that is set; a value of its own has to be plain too. -/
def length : LengthOption → Except UsageFault (Option Int)
  | unset => .ok none
  | joined value => read value
  | apart value =>
    if value = "--" then .error (.valueMissing .maxLength)
    else do
      match ← Word.ofArgument value with
      | .plain text => read text
      | _ => .error (.valueMissing .maxLength)

/-- The call with the option and with expressions. -/
def call (o : LengthOption) (es : List String) : Except UsageFault Call :=
  o.length.map fun n => .run { expressions := es, maxLength := n }

end LengthOption

/-- The words taken so far, when a length follows. -/
def Taken.withLength (t : Taken) : Option Int → Taken
  | none => t
  | some n =>
    { t with
      arguments := { t.arguments with maxLength := some n }, stretch := t.stretch.interrupt }

/-- The option is taken as the number that its value writes. -/
theorem maxLength_eq_map (t : Taken) (value : String) :
    t.maxLength value = (LengthOption.read value).map t.withLength := by
  rw [Taken.maxLength, LengthOption.read]
  cases Text.argumentInt? value <;> rfl

/-- The name with an equals sign and a value is one word. -/
theorem ofArgument_joined (value : String) :
    Word.ofArgument ("--max-length=" ++ value) = .ok (.switch .maxLength (some value)) := by
  have htext : ("--max-length=" ++ value).toList = "--max-length".toList ++ '=' :: value.toList := by
    rw [String.toList_append]
    rfl
  have hcut : Word.cutAtEquals ("--max-length=" ++ value) = ("--max-length", some value) := by
    have hname : ∀ c ∈ "--max-length".toList, (c != '=') = true := Text.bne_of_not_mem (by decide)
    have hends := Text.ends_bne_cons '=' value.toList
    rw [Word.cutAtEquals, htext, Text.dropWhile_of_ends hname hends,
      Text.takeWhile_of_ends hname hends, String.ofList_toList]
    exact congrArg (fun text => ("--max-length", some text)) String.ofList_toList
  -- no name of an option holds a sign of equality
  have hname : Switch.ofName? ("--max-length=" ++ value) = none := by
    have hsign : ∀ name ∈ Switch.names.map Prod.fst, '=' ∉ name.toList := by decide
    refine Option.eq_none_iff_forall_ne_some.2 fun s hs => ?_
    refine hsign _ (Switch.mem_names_of_ofName? hs) ?_
    rw [htext]
    exact List.mem_append_right _ List.mem_cons_self
  rw [Word.ofArgument, hname, hcut, htext]
  rfl

theorem joined_ne_separator (value : String) : "--max-length=" ++ value ≠ "--" := by
  intro h
  have hlength := congrArg String.length h
  rw [String.length_append] at hlength
  have hname : "--max-length=".length = 13 := rfl
  have hseparator : "--".length = 2 := rfl
  omega

namespace LengthOption

variable (o : LengthOption)

/-- The arguments of the option are taken as its length, before whatever words follow. -/
theorem take_arguments_append (t : Taken) {rest : List String} {words : List Word}
    (h : Word.ofArguments rest = .ok words) :
    (Word.ofArguments (o.arguments ++ rest) >>= take t) =
      (o.length >>= fun n => take (t.withLength n) words) := by
  cases o with
  | unset => exact congrArg (· >>= take t) h
  | joined value =>
    rw [arguments, List.singleton_append, Word.ofArguments_cons (joined_ne_separator value),
      ofArgument_joined, h, ok_bind, ok_bind, pure_bind, take, maxLength_eq_map, length]
    cases read value <;> rfl
  | apart value =>
    have hname : Word.ofArgument "--max-length" = .ok (.switch .maxLength none) := by decide
    rw [arguments, List.cons_append, List.singleton_append, Word.ofArguments_cons (by decide), hname,
      ok_bind, length]
    -- the separator is no value, wherever it stands
    by_cases hvalue : value = "--"
    · rw [hvalue]
      rfl
    · rw [if_neg hvalue, Word.ofArguments_cons hvalue, h]
      rcases Word.ofArgument value with fault | word
      · rfl
      · rw [ok_bind, ok_bind, pure_bind, pure_bind, ok_bind]
        cases word with
        | plain text =>
          rw [take, maxLength_eq_map]
          dsimp only
          cases read text <;> rfl
        | _ => rfl

/-- Where a call comes about behind the option, the arguments behind it are words. -/
theorem words_of_ofArguments_append {rest : List String} {call : Call}
    (h : Call.ofArguments (o.arguments ++ rest) = .ok call) :
    ∃ words, Word.ofArguments rest = .ok words := by
  obtain ⟨words, hwords, htake⟩ := bind_eq_ok_iff.1 h
  cases o with
  | unset => exact ⟨words, hwords⟩
  | joined value =>
    rw [arguments, List.singleton_append, Word.ofArguments_cons (joined_ne_separator value)] at hwords
    obtain ⟨_, _, hwords⟩ := bind_eq_ok_iff.1 hwords
    obtain ⟨others, hothers, -⟩ := bind_eq_ok_iff.1 hwords
    exact ⟨others, hothers⟩
  | apart value =>
    rw [arguments, List.cons_append, List.singleton_append,
      Word.ofArguments_cons (by decide)] at hwords
    obtain ⟨word, hword, hwords⟩ := bind_eq_ok_iff.1 hwords
    obtain ⟨behind, hbehind, hwords⟩ := bind_eq_ok_iff.1 hwords
    by_cases hvalue : value = "--"
    · -- the option has no value then
      subst hvalue
      have hname : Word.ofArgument "--max-length" = .ok (.switch .maxLength none) := by decide
      cases hname.symm.trans hword
      cases hbehind
      cases hwords
      cases htake
    · rw [Word.ofArguments_cons hvalue] at hbehind
      obtain ⟨_, _, hbehind⟩ := bind_eq_ok_iff.1 hbehind
      obtain ⟨others, hothers, -⟩ := bind_eq_ok_iff.1 hbehind
      exact ⟨others, hothers⟩

/-- The call with the option in front is that of the words behind it, with the length set. -/
theorem ofArguments_append {rest : List String} {words : List Word}
    (h : Word.ofArguments rest = .ok words) :
    Call.ofArguments (o.arguments ++ rest) =
      (o.length >>= fun n => take (({} : Taken).withLength n) words) :=
  o.take_arguments_append {} h

variable {es : List String}

/-- Plain expressions come through behind the option, -/
theorem ofArguments_append_of_isPlain (h : ∀ e ∈ es, Word.isPlain e = true) :
    Call.ofArguments (o.arguments ++ es) = o.call es := by
  have hwords := Word.ofArguments_of_isPlain h []
  rw [List.append_nil] at hwords
  rw [o.ofArguments_append hwords, call]
  rcases o.length with fault | _ | n
  · rfl
  all_goals
    refine (congrArg (take _) (List.append_nil _)).trans ?_
    exact take_plains (show Stretch.ahead ≠ .over from nofun) rfl es

/-- and in front of it, -/
theorem ofArguments_of_isPlain_append (h : ∀ e ∈ es, Word.isPlain e = true) :
    Call.ofArguments (es ++ o.arguments) = o.call es := by
  obtain ⟨harguments, hleftOver⟩ := foldl_plain (t := {}) nofun es
  have hnone : Word.ofArguments [] = .ok [] := rfl
  have hback := o.take_arguments_append (es.foldl Taken.plain {}) hnone
  rw [List.append_nil] at hback
  -- the expressions in front are taken first, and leave what they have collected to the option
  have hfront : Call.ofArguments (es ++ o.arguments) =
      (Word.ofArguments o.arguments >>= take (es.foldl Taken.plain {})) := by
    rw [Call.ofArguments, Word.ofArguments_of_isPlain h]
    cases Word.ofArguments o.arguments with
    | error fault => rfl
    | ok words => exact take_map_plain {} es words
  rw [hfront, hback, call]
  rcases o.length with fault | _ | n
  · rfl
  · show (es.foldl Taken.plain {}).finish = _
    rw [Taken.finish, hleftOver, harguments]
    rfl
  · show (Taken.withLength (es.foldl Taken.plain {}) (some n)).finish = _
    rw [Taken.finish, Taken.withLength, hleftOver, harguments]
    rfl

/-- and all expressions do behind the separator. -/
theorem ofArguments_separator (es : List String) :
    Call.ofArguments (o.arguments ++ "--" :: es) = o.call es := by
  have hwords : Word.ofArguments ("--" :: es) = .ok (.separator :: es.map .plain) := rfl
  rw [o.ofArguments_append hwords, call]
  rcases o.length with fault | _ | n
  · rfl
  · exact take_plains (show Stretch.here ≠ .over from nofun) rfl es
  · exact take_plains (show Stretch.here ≠ .over from nofun) rfl es

/-- The option alone makes a call without expressions. -/
theorem ofArguments_eq : Call.ofArguments o.arguments = o.call [] := by
  rw [← o.ofArguments_append_of_isPlain (fun _ he => absurd he List.not_mem_nil), List.append_nil]

end LengthOption

end Batch

end KeypadCalc
