import KeypadCalc.Proofs.Keypad.Stroke
import KeypadCalc.Proofs.Token.Tiling
import Mathlib.Data.List.DropRight

/-!
# KeypadCalc — the cap on digits

The operands of an expression are its pieces between boundaries (`operands`). A key for digits looks
at the piece behind the last boundary alone, which is the last operand (`exists_operands_append`), and
still every operand keeps to the cap: digits go into the last operand and only where it has room,
everything else that a key adds has no digits (`State.Edits.capped`). So the numerals of an
expression keep to the cap too, for none reaches across a boundary (`Capped.countP_le_of_infix`).
-/

namespace KeypadCalc.Keypad

open Text (isCountedDigit isDigit)

/-- The operands of an expression: its pieces between boundaries. -/
def operands (cs : List Char) : List (List Char) :=
  cs.splitOnP isBoundary

/-- No operand has more digits than the cap. -/
def Capped (maxDigits : Int) (cs : List Char) : Prop :=
  ∀ piece ∈ operands cs, (piece.countP isCountedDigit : Int) ≤ maxDigits

/-! ## The last operand -/

theorem operands_append_cons {b : Char} (hb : isBoundary b = true) (cs ds : List Char) :
    operands (cs ++ b :: ds) = operands cs ++ operands ds :=
  List.splitOnP_append_cons cs ds hb

/-- What has no boundary in it goes into the operand behind the last boundary, which is the last
one, and leaves the others as they are. -/
theorem exists_operands_append (cs : List Char) :
    ∃ front, ∀ xs, (∀ c ∈ xs, isBoundary c = false) →
      operands (cs ++ xs) = front ++ [currentOperand cs ++ xs] := by
  have hcurrent : currentOperand cs = cs.rtakeWhile (!isBoundary ·) := rfl
  have hplain : ∀ c ∈ currentOperand cs, isBoundary c = false := by
    intro c hc
    rw [hcurrent] at hc
    simpa using List.mem_rtakeWhile_imp hc
  have hsplit : cs.rdropWhile (!isBoundary ·) ++ currentOperand cs = cs :=
    List.rdropWhile_append_rtakeWhile
  rcases List.eq_nil_or_concat (cs.rdropWhile (!isBoundary ·)) with hnil | ⟨ds, b, hconcat⟩
  · -- no boundary at all
    rw [hnil, List.nil_append] at hsplit
    refine ⟨[], fun xs hxs => ?_⟩
    rw [hsplit]
    refine List.splitOnP_eq_singleton fun c hc => ?_
    rcases List.mem_append.1 hc with hc | hc
    · exact hplain c (hsplit.symm ▸ hc)
    · exact hxs c hc
  · -- the last boundary ends what stands in front of the current operand
    have hb : isBoundary b = true := by
      have hlast := List.rdropWhile_last_not (!isBoundary ·) cs (by simp [hconcat])
      simpa [hconcat] using hlast
    refine ⟨operands ds, fun xs hxs => ?_⟩
    have hcs : cs ++ xs = ds ++ b :: (currentOperand cs ++ xs) := by
      conv_lhs => rw [← hsplit, hconcat]
      simp
    rw [hcs, operands_append_cons hb]
    refine congrArg (operands ds ++ ·) (List.splitOnP_eq_singleton fun c hc => ?_)
    rcases List.mem_append.1 hc with hc | hc
    · exact hplain c hc
    · exact hxs c hc

/-- The operand behind the last boundary is the last one, and what has no boundary goes into it. -/
theorem getLast?_operands_append (cs : List Char) {xs : List Char}
    (hxs : ∀ c ∈ xs, isBoundary c = false) :
    (operands (cs ++ xs)).getLast? = some (currentOperand cs ++ xs) := by
  obtain ⟨front, hfront⟩ := exists_operands_append cs
  rw [hfront xs hxs, List.getLast?_concat]

namespace Capped

variable {maxDigits : Int} {cs xs : List Char}

theorem nil (h : 0 ≤ maxDigits) : Capped maxDigits [] := by
  intro piece hpiece
  rw [operands, List.splitOnP_nil, List.mem_singleton] at hpiece
  rw [hpiece]
  exact h

theorem append_cons_iff {b : Char} (hb : isBoundary b = true) {ds : List Char} :
    Capped maxDigits (cs ++ b :: ds) ↔ Capped maxDigits cs ∧ Capped maxDigits ds := by
  rw [Capped, operands_append_cons hb, List.forall_mem_append]
  rfl

/-- What has no boundary keeps to the cap where its digits have room in the last operand. -/
theorem append (h : Capped maxDigits cs) (hxs : ∀ c ∈ xs, isBoundary c = false)
    (hroom : ((currentOperand cs).countP isCountedDigit : Int) + xs.countP isCountedDigit ≤
      maxDigits) : Capped maxDigits (cs ++ xs) := by
  obtain ⟨front, hfront⟩ := exists_operands_append cs
  have hcs := hfront [] nofun
  rw [List.append_nil, List.append_nil] at hcs
  rw [Capped, hcs, List.forall_mem_append] at h
  rw [Capped, hfront xs hxs, List.forall_mem_append]
  refine ⟨h.1, List.forall_mem_singleton.2 ?_⟩
  rw [List.countP_append, Nat.cast_add]
  exact hroom

/-- The last operand keeps to the cap, as every other one does. -/
theorem currentOperand_le (h : Capped maxDigits cs) :
    ((currentOperand cs).countP isCountedDigit : Int) ≤ maxDigits := by
  have hnone : ∀ c ∈ ([] : List Char), isBoundary c = false := nofun
  have hlast := getLast?_operands_append cs hnone
  rw [List.append_nil, List.append_nil] at hlast
  exact h _ (List.mem_of_getLast? hlast)

/-- What has no digits in it may be added. Induction on what is added: a boundary starts an empty
operand, and anything else goes into the last one. -/
theorem append_of_no_digits (h : Capped maxDigits cs)
    (hxs : xs.countP isCountedDigit = 0) : Capped maxDigits (cs ++ xs) := by
  induction xs generalizing cs with
  | nil =>
    rw [List.append_nil]
    exact h
  | cons c xs ih =>
    rw [← List.singleton_append, List.countP_append] at hxs
    obtain ⟨hfirst, hrest⟩ := Nat.add_eq_zero_iff.1 hxs
    -- one character at a time: a boundary opens an operand without digits, any other adds none
    have hstep : Capped maxDigits (cs ++ [c]) := by
      have hle := h.currentOperand_le
      cases hb : isBoundary c with
      | true =>
        refine (append_cons_iff hb).2 ⟨h, nil ?_⟩
        exact (Int.natCast_nonneg _).trans hle
      | false =>
        refine h.append (by simpa using hb) ?_
        rw [hfirst]
        simpa using hle
    rw [List.append_cons]
    exact ih hstep hrest

/-- The front of a text keeps to the cap. Induction on what is cut off, from its end. -/
theorem of_append {ds : List Char} (h : Capped maxDigits (cs ++ ds)) : Capped maxDigits cs := by
  induction ds using List.reverseRecOn with
  | nil => rwa [List.append_nil] at h
  | append_singleton ds c ih =>
    rw [← List.append_assoc] at h
    refine ih ?_
    cases hb : isBoundary c with
    | true => exact ((append_cons_iff hb).1 h).1
    | false =>
      -- the last operand is shorter by one character
      obtain ⟨front, hfront⟩ := exists_operands_append (cs ++ ds)
      have hcs := hfront [] nofun
      rw [List.append_nil, List.append_nil] at hcs
      rw [Capped, hfront [c] (by simpa using hb), List.forall_mem_append] at h
      rw [Capped, hcs, List.forall_mem_append]
      refine ⟨h.1, List.forall_mem_singleton.2 ?_⟩
      have hle := List.forall_mem_singleton.1 h.2
      rw [List.countP_append] at hle
      omega

/-- A part of a text without a boundary in it lies in one operand. -/
theorem countP_le_of_infix (h : Capped maxDigits cs) (hpart : xs <:+: cs)
    (hxs : ∀ c ∈ xs, isBoundary c = false) : (xs.countP isCountedDigit : Int) ≤ maxDigits := by
  obtain ⟨before, rest, rfl⟩ := hpart
  have hpiece := h.of_append _ (List.mem_of_getLast? (getLast?_operands_append before hxs))
  rw [List.countP_append] at hpiece
  omega

end Capped

/-! ## Keys -/

/-- What a key for digits adds is digits. -/
theorem Key.plain_label_of_digits? {k : Key} {ds : List (Fin 10)} (h : k.digits? = some ds) :
    k.label.toList.any isBoundary = false ∧
      k.label.toList.countP isCountedDigit = k.label.length ∧ k.label ≠ "" := by
  cases k <;> cases h <;> decide

/-- Every key keeps to the cap. -/
theorem State.Edits.capped {maxDigits : Int} {s t : State} {k : Key} (hmax : 1 ≤ maxDigits)
    (h : Capped maxDigits s.expression.toList) (hedits : s.Edits maxDigits k t) :
    Capped maxDigits t.expression.toList := by
  have hclose : Capped maxDigits s.closeRoot.expression.toList := by
    unfold State.closeRoot
    split
    · rw [String.toList_append]
      exact h.append_of_no_digits (by decide)
    · exact h
  cases hedits with
  | clear => exact Capped.nil (zero_le_one.trans hmax)
  | root =>
    show Capped maxDigits (s.expression ++ "sqrt(").toList
    rw [String.toList_append]
    exact h.append_of_no_digits (by decide)
  | operator o =>
    show Capped maxDigits (s.closeRoot.expression ++ o.typed).toList
    rw [String.toList_append]
    exact hclose.append_of_no_digits (by cases o <;> decide)
  | point =>
    show Capped maxDigits (s.expression ++ ".").toList
    rw [String.toList_append]
    exact h.append_of_no_digits (by decide)
  | equals => exact hclose
  | digits hk hroom =>
    obtain ⟨hplain, hcount, -⟩ := Key.plain_label_of_digits? hk
    show Capped maxDigits (s.expression ++ k.label).toList
    rw [String.toList_append]
    refine h.append (by simpa using hplain) ?_
    rw [hcount]
    exact hroom
  | full hk hroom => exact h
  | zero hk hempty =>
    -- one digit, for which every cap has room
    have hblank : Capped maxDigits [] := Capped.nil (zero_le_one.trans hmax)
    have hzero : "0".toList = [] ++ ['0'] := by decide
    show Capped maxDigits "0".toList
    rw [hzero]
    exact hblank.append (List.forall_mem_singleton.2 rfl) hmax

/-- A key for digits leaves the texts as they are only where its digits would break the cap in the
last operand, or as a zero behind a zero alone. -/
theorem State.Edits.of_unchanged {maxDigits : Int} {s t : State} {k : Key} {ds : List (Fin 10)}
    (hk : k.digits? = some ds) (hedits : s.Edits maxDigits k t)
    (hsame : t.expression = s.expression) :
    (∃ piece, (operands (s.expression.toList ++ k.label.toList)).getLast? = some piece ∧
        maxDigits < piece.countP isCountedDigit) ∨
      (k = .zero ∨ k = .doubleZero) ∧ s.expression = "0" := by
  -- only a full operand and a superfluous zero leave the expression as it was
  cases hedits with
  | clear | root | point | equals => cases hk
  | operator o => cases o <;> cases hk
  | digits _ hroom =>
    obtain ⟨-, -, hne⟩ := Key.plain_label_of_digits? hk
    exact absurd (String.append_eq_left_iff.1 hsame) hne
  | full _ hroom =>
    obtain ⟨hplain, hcount, -⟩ := Key.plain_label_of_digits? hk
    refine .inl ⟨_, getLast?_operands_append s.expression.toList (by simpa using hplain), ?_⟩
    rw [List.countP_append, hcount, Nat.cast_add]
    exact hroom
  | zero hzero hempty =>
    refine .inr ⟨hzero, hempty.resolve_left fun hblank => ?_⟩
    have hzeros : "0" = s.expression := hsame
    rw [hblank] at hzeros
    exact absurd hzeros (by decide)

/-! ## Runs -/

theorem State.capped_typeAll {maxDigits : Int} (hmax : 1 ≤ maxDigits) {s : State} (keys : List Key)
    (h : Capped maxDigits s.expression.toList) :
    Capped maxDigits (s.typeAll maxDigits keys).expression.toList := by
  induction keys generalizing s with
  | nil => exact h
  | cons k ks ih => exact ih ((edits_edit maxDigits s k).capped hmax h)

/-- The boundaries are no digits, and no points. -/
theorem isBoundary_of_isDigit_or_eq {c : Char} (h : isDigit c = true ∨ c = '.') :
    isBoundary c = false := by
  have hnone : (['+', '-', '*', '/', '^', '('].all fun b => !isDigit b) = true := by decide
  rw [Bool.eq_false_iff]
  intro hb
  have hmem : c ∈ ['+', '-', '*', '/', '^', '('] := by
    simpa [isBoundary, or_assoc] using hb
  rcases h with hdigit | rfl
  · have hnot := List.all_eq_true.1 hnone c hmem
    rw [hdigit] at hnot
    cases hnot
  · exact absurd hmem (by decide)

/-- The numerals of an expression that keeps to the cap keep to it. -/
theorem Capped.numeral_le {maxDigits : Int} {w : String} (h : Capped maxDigits w.toList)
    {ts : List Token} (hts : Token.tokenize w = .ok ts) {t : Token} (ht : t ∈ ts)
    (hnumber : t.kind = .number) : (t.text.toList.countP isCountedDigit : Int) ≤ maxDigits := by
  obtain ⟨us, hus, rfl⟩ := map_eq_ok_iff.1 hts
  rcases List.mem_append.1 ht with ht | ht
  · -- a numeral has no boundary in it, so it lies within one operand
    obtain ⟨before, rest, hw, -, hfront⟩ := (Token.tiles_of_scan hus).exists_front ht
    have hlexeme := hfront.lexeme
    rw [hnumber] at hlexeme
    generalize t.text.toList = text at hw hlexeme ⊢
    cases hlexeme with
    | numeral hwritten =>
      refine h.countP_le_of_infix ⟨before, rest, ?_⟩ fun c hc =>
        isBoundary_of_isDigit_or_eq (hwritten.isDigit_or_eq c hc)
      rw [hw, List.append_assoc]
    | spelled hk => exact absurd rfl hk
  · rw [List.mem_singleton.1 ht] at hnumber
    cases hnumber

/-- **No operand ever has more digits than the cap, so no numeral has, and digits are refused for no
other reason**, but for zeros behind a zero alone. -/
theorem operands_keep_to_cap (service : Calculator.Service) {maxDigits : Int} (hmax : 1 ≤ maxDigits)
    (id : String) (keys : List Key) (w : Surroundings) :
    (AnswersOrRefuses service →
      ∃ s, ((pressAll service maxDigits (.blank id) keys).run w).1 = .ok s) ∧
    ∀ s, ((pressAll service maxDigits (.blank id) keys).run w).1 = .ok s →
      (∀ piece ∈ operands s.expression.toList,
        (piece.countP isCountedDigit : Int) ≤ maxDigits) ∧
      (∀ ts, Token.tokenize s.expression = .ok ts → ∀ t ∈ ts, t.kind = .number →
        (t.text.toList.countP isCountedDigit : Int) ≤ maxDigits) ∧
      ∀ k ds, k.digits? = some ds →
        ∃ t, (∀ w, (press service maxDigits s k).run w = (.ok t, w)) ∧
          (t.expression = s.expression → t.equation = s.equation →
            (∃ piece, (operands (s.expression.toList ++ k.label.toList)).getLast? = some piece ∧
                maxDigits < piece.countP isCountedDigit) ∨
              (k = .zero ∨ k = .doubleZero) ∧ s.expression = "0") := by
  refine ⟨fun hservice => exists_pressAll_eq_ok hservice keys, fun s hs => ?_⟩
  -- an answer does not touch the expression, so only the typed keys count
  have hcapped : Capped maxDigits s.expression.toList := by
    obtain ⟨answer, rfl⟩ := pressAll_eq_ok hs
    exact State.capped_typeAll hmax keys (Capped.nil (zero_le_one.trans hmax))
  refine ⟨hcapped, fun ts hts t ht => hcapped.numeral_le hts ht, fun k ds hk => ?_⟩
  have hne : k ≠ .equals := by
    rintro rfl
    cases hk
  -- a key that changes nothing was refused, and its edit says why
  exact ⟨s.edit maxDigits k, fun w => press_run_of_ne hne, fun hsame _ =>
    (State.edits_edit maxDigits s k).of_unchanged hk hsame⟩

/-- With a cap of two digits a zero has room behind `12.sqrt(`, and two more zeros have none. -/
theorem operands_of_full_root :
    ∃ s, ((pressAll (Calculator.localService { stack := .usual }) 2 (.blank "s")
        [.one, .two, .three, .point, .root, .zero]).run {}).1 = .ok s ∧
      s.expression = "12.sqrt(0" ∧
      (∀ piece ∈ operands s.expression.toList, (piece.countP isCountedDigit : Int) ≤ 2) ∧
      ∃ piece, (operands (s.expression.toList ++ "00".toList)).getLast? = some piece ∧
        (2 : Int) < piece.countP isCountedDigit := by
  have hrun : ((pressAll (Calculator.localService { stack := .usual }) 2 (.blank "s")
      [.one, .two, .three, .point, .root, .zero]).run {}).1 =
        .ok ⟨"s", "12.sqrt(0", "12.√0", "", true⟩ := eq_ok_of_toOption (by decide +kernel)
  obtain ⟨-, hreached⟩ := operands_keep_to_cap (Calculator.localService { stack := .usual })
    (by decide : (1 : Int) ≤ 2) "s" [.one, .two, .three, .point, .root, .zero] {}
  obtain ⟨hpieces, -, hrefused⟩ := hreached _ hrun
  refine ⟨_, hrun, rfl, hpieces, ?_⟩
  -- two zeros at once would make three digits, so the key is refused
  obtain ⟨t, hpress, hunchanged⟩ := hrefused .doubleZero [0, 0] rfl
  have hsame : t = ⟨"s", "12.sqrt(0", "12.√0", "", true⟩ := by
    have hedit : (press (Calculator.localService { stack := .usual }) 2
        ⟨"s", "12.sqrt(0", "12.√0", "", true⟩ .doubleZero).run {} = _ :=
      press_run_of_ne (by decide)
    have hstate := (hpress {}).symm.trans hedit
    exact (Except.ok.inj (congrArg Prod.fst hstate)).trans (by decide +kernel)
  subst hsame
  exact (hunchanged rfl rfl).resolve_right fun h => absurd h.2 (by decide)

end KeypadCalc.Keypad
