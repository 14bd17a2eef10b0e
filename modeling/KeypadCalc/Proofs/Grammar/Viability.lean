import KeypadCalc.Proofs.Grammar.Tree

/-!
# KeypadCalc — beginnings of sentences

A list of terminals is a sentence if a sum writes it, and viable if a sentence begins with it. Going
from left to right, one has to remember only whether an operand has ended and how many groups are
open: the `Place`. A terminal leads from one place to another, or cannot stand there.

* **`sentence_iff`** — a sentence is what leads to a place behind an operand with no group open.
* **`viable_iff`** — a viable list is what leads anywhere.

A tree of any rank is an operand with as many groups open behind it as in front of it
(`Tree.walk_yield`). The other way round, `Place.Reached` says of a place which parts of a sentence
a list that leads there is made of, and every terminal keeps it (`Place.Reached.next`).
-/

namespace KeypadCalc.Grammar

/-- Some sum writes these terminals. -/
def Sentence (ts : List Terminal) : Prop :=
  ∃ s : Tree .sum, s.yield = ts

/-- Some sentence begins with these terminals. -/
def Viable (ts : List Terminal) : Prop :=
  ∃ behind, Sentence (ts ++ behind)

/-- A place in an expression, with the number of groups that are open. -/
inductive Place where
  /-- An operand has to follow. -/
  | before (count : Nat)
  /-- An operand has ended. -/
  | behind (count : Nat)
  deriving DecidableEq, Repr

/-- The place behind a terminal, if the terminal can stand at a place. -/
def Place.next : Place → Terminal → Option Place
  | before n, .numeral _ => some (behind n)
  | before n, .mark .minus => some (before n)
  | before n, .mark .openGroup | before n, .mark .openRoot => some (before (n + 1))
  | behind n, .mark .plus | behind n, .mark .minus | behind n, .mark .times
  | behind n, .mark .divide | behind n, .mark .power => some (before n)
  | behind (n + 1), .mark .closeGroup => some (behind n)
  | _, _ => none

/-- Where terminals lead from a place, if they can stand there one after the other. -/
def walk (p : Place) (ts : List Terminal) : Option Place :=
  ts.foldlM Place.next p

/-! ## Walking -/

/-- To go over a list and then over another is to go over both. -/
theorem walk_append (p : Place) (ts us : List Terminal) :
    walk p (ts ++ us) = (walk p ts).bind fun q => walk q us :=
  List.foldlM_append

theorem walk_cons {p q : Place} {t : Terminal} (h : p.next t = some q) (ts : List Terminal) :
    walk p (t :: ts) = walk q ts := by
  rw [walk, List.foldlM_cons, h]
  rfl

theorem walk_snoc {p q : Place} {ts : List Terminal} (h : walk p ts = some q) (t : Terminal) :
    walk p (ts ++ [t]) = q.next t := by
  rw [walk_append, h, Option.bind_some]
  show (q.next t).bind some = q.next t
  cases q.next t <;> rfl

/-- An operator leads from behind an operand to the front of the next one. -/
theorem walk_between {ts us : List Terminal} {k : Token.Kind} {n : Nat}
    (hk : (Place.behind n).next (.mark k) = some (.before n))
    (hts : walk (.before n) ts = some (.behind n)) (hus : walk (.before n) us = some (.behind n)) :
    walk (.before n) (ts ++ .mark k :: us) = some (.behind n) := by
  rw [walk_append, hts, Option.bind_some, walk_cons hk, hus]

/-- What goes from before an operand to behind it makes a group that does. -/
theorem walk_group {ts : List Terminal} {k : Token.Kind} {n : Nat}
    (hk : (Place.before n).next (.mark k) = some (.before (n + 1)))
    (hts : walk (.before (n + 1)) ts = some (.behind (n + 1))) :
    walk (.before n) (.mark k :: (ts ++ [.mark .closeGroup])) = some (.behind n) := by
  rw [walk_cons hk, walk_snoc hts]
  rfl

/-- A tree of any rank is an operand, and leaves as many groups open as it finds. -/
theorem Tree.walk_yield {r : Rank} (t : Tree r) (n : Nat) :
    walk (.before n) t.yield = some (.behind n) := by
  induction t generalizing n with
  | ofProduct p ih => exact ih n
  | add s op p ihs ihp => exact walk_between (by cases op <;> rfl) (ihs n) (ihp n)
  | ofFactor f ih => exact ih n
  | multiply p op f ihp ihf => exact walk_between (by cases op <;> rfl) (ihp n) (ihf n)
  | ofBase b ih => exact ih n
  | power b e ihb ihe => exact walk_between rfl (ihb n) (ihe n)
  | number text => rfl
  | group s ih => exact walk_group rfl (ih (n + 1))
  | root s ih => exact walk_group rfl (ih (n + 1))
  | negate b ih =>
    rw [Tree.yield, walk_cons rfl]
    exact ih n

/-! ## A sum goes on at its right end -/

/-- The operators that may stand between two operands. -/
def isBinary (k : Token.Kind) : Bool :=
  k = .plus || k = .minus || k = .times || k = .divide || k = .power

/-- Behind a factor a power sign with a base makes a factor again: it goes to the last exponent. -/
theorem exists_factor_power (f : Tree .factor) (b : Tree .base) :
    ∃ g : Tree .factor, g.yield = f.yield ++ .mark .power :: b.yield := by
  match f with
  | .ofBase a => exact ⟨.power a (.ofBase b), rfl⟩
  | .power a e =>
    -- the exponent goes on, for powers nest to the right
    obtain ⟨e', he⟩ := exists_factor_power e b
    exact ⟨.power a e', by simp only [Tree.yield, he, List.append_assoc, List.cons_append]⟩

theorem exists_product_power (p : Tree .product) (b : Tree .base) :
    ∃ q : Tree .product, q.yield = p.yield ++ .mark .power :: b.yield := by
  match p with
  | .ofFactor f =>
    obtain ⟨g, hg⟩ := exists_factor_power f b
    exact ⟨.ofFactor g, hg⟩
  | .multiply p op f =>
    obtain ⟨g, hg⟩ := exists_factor_power f b
    exact ⟨.multiply p op g, by simp only [Tree.yield, hg, List.append_assoc, List.cons_append]⟩

/-- Where the last product of a sum can go on, so can the sum. -/
theorem exists_sum_of_product {k : Token.Kind} {us : List Terminal}
    (h : ∀ p : Tree .product, ∃ q : Tree .product, q.yield = p.yield ++ .mark k :: us)
    (s : Tree .sum) : ∃ s' : Tree .sum, s'.yield = s.yield ++ .mark k :: us := by
  match s with
  | .ofProduct p =>
    obtain ⟨q, hq⟩ := h p
    exact ⟨.ofProduct q, hq⟩
  | .add s op p =>
    obtain ⟨q, hq⟩ := h p
    exact ⟨.add s op q, by simp only [Tree.yield, hq, List.append_assoc, List.cons_append]⟩

/-- Behind a sum, every operator with an operand goes on with it. -/
theorem exists_sum_binary {k : Token.Kind} (hk : isBinary k = true) (s : Tree .sum)
    (b : Tree .base) : ∃ s' : Tree .sum, s'.yield = s.yield ++ .mark k :: b.yield := by
  cases k with
  | plus => exact ⟨.add s .plus (.ofFactor (.ofBase b)), rfl⟩
  | minus => exact ⟨.add s .minus (.ofFactor (.ofBase b)), rfl⟩
  | times => exact exists_sum_of_product (fun p => ⟨.multiply p .times (.ofBase b), rfl⟩) s
  | divide => exact exists_sum_of_product (fun p => ⟨.multiply p .divide (.ofBase b), rfl⟩) s
  | power => exact exists_sum_of_product (fun p => exists_product_power p b) s
  | number | openGroup | openRoot | closeGroup | finish => cases hk

/-! ## What has been reached at a place -/

/-- The terminals are a sum in so many open groups, each of which stands where an operand may: it
could be any base. -/
def Written : Nat → List Terminal → Prop
  | 0, ts => Sentence ts
  | n + 1, ts => ∃ pre k, ∃ s : Tree .sum, ts = pre ++ .mark k :: s.yield ∧
      (k = .openGroup ∨ k = .openRoot) ∧ ∀ b : Tree .base, Written n (pre ++ b.yield)

/-- What the terminals are that have led to a place from the front of an expression. -/
def Place.Reached : Place → List Terminal → Prop
  | before n, ts => ∀ b : Tree .base, Written n (ts ++ b.yield)
  | behind n, ts => Written n ts

/-- Every operator with an operand goes on with what has been written. -/
theorem Written.binary {k : Token.Kind} (hk : isBinary k = true) {n : Nat} {ts : List Terminal}
    (h : Written n ts) (b : Tree .base) : Written n (ts ++ [.mark k] ++ b.yield) := by
  rw [List.append_assoc, List.singleton_append]
  cases n with
  | zero =>
    obtain ⟨s, rfl⟩ := h
    exact exists_sum_binary hk s b
  | succ n =>
    obtain ⟨pre, opening, s, rfl, hopening, hpre⟩ := h
    obtain ⟨s', hs'⟩ := exists_sum_binary hk s b
    refine ⟨pre, opening, s', ?_, hopening, hpre⟩
    rw [hs', List.append_assoc, List.cons_append]

/-- A closing parenthesis makes the last group an operand of what stands in front of it. -/
theorem Written.close {n : Nat} {ts : List Terminal} (h : Written (n + 1) ts) :
    Written n (ts ++ [.mark .closeGroup]) := by
  obtain ⟨pre, opening, s, rfl, hopening, hpre⟩ := h
  rw [List.append_assoc, List.cons_append]
  rcases hopening with rfl | rfl
  · exact hpre (.group s)
  · exact hpre (.root s)

namespace Place

theorem Reached.numeral {n : Nat} {ts : List Terminal} (h : (before n).Reached ts) (text : String) :
    (behind n).Reached (ts ++ [.numeral text]) :=
  h (.number text)

/-- An opening leaves the part in front of it open, and one more group. -/
theorem Reached.opening {n : Nat} {ts : List Terminal} (h : (before n).Reached ts)
    {k : Token.Kind} (hk : k = .openGroup ∨ k = .openRoot) :
    (before (n + 1)).Reached (ts ++ [.mark k]) := by
  intro b
  refine ⟨ts, k, .ofProduct (.ofFactor (.ofBase b)), ?_, hk, h⟩
  rw [List.append_assoc, List.singleton_append]
  rfl

theorem Reached.minus {n : Nat} {ts : List Terminal} (h : (before n).Reached ts) :
    (before n).Reached (ts ++ [.mark .minus]) := by
  intro b
  rw [List.append_assoc, List.singleton_append]
  exact h (.negate b)

/-- Every terminal keeps what has been reached. -/
theorem Reached.next {p q : Place} {ts : List Terminal} {t : Terminal} (h : p.Reached ts)
    (hnext : p.next t = some q) : q.Reached (ts ++ [t]) := by
  cases p with
  | before n =>
    cases t with
    | numeral text =>
      cases hnext
      exact h.numeral text
    | mark k =>
      cases k with
      | minus =>
        cases hnext
        exact h.minus
      | openGroup =>
        cases hnext
        exact h.opening (.inl rfl)
      | openRoot =>
        cases hnext
        exact h.opening (.inr rfl)
      | number | plus | times | divide | power | closeGroup | finish => cases hnext
  | behind n =>
    cases t with
    | numeral text => cases hnext
    | mark k =>
      cases k with
      | plus | minus | times | divide | power =>
        cases hnext
        exact fun b => Written.binary rfl h b
      -- a closing parenthesis needs a group that is open
      | closeGroup =>
        cases n with
        | zero => cases hnext
        | succ n =>
          cases hnext
          exact Written.close h
      | number | openGroup | openRoot | finish => cases hnext

/-- A walk keeps what has been reached. -/
theorem Reached.walk {p q : Place} {ts us : List Terminal} (h : p.Reached ts)
    (hwalk : walk p us = some q) : q.Reached (ts ++ us) := by
  induction us generalizing p ts with
  | nil =>
    cases hwalk
    rw [List.append_nil]
    exact h
  | cons t us ih =>
    obtain ⟨m, hm, hrest⟩ := Option.bind_eq_some_iff.1 hwalk
    have hall := ih (h.next hm) hrest
    rw [List.append_assoc, List.singleton_append] at hall
    exact hall

/-- In front of an expression, any base would be a sentence. -/
theorem reached_nil : (before 0).Reached [] :=
  fun b => ⟨.ofProduct (.ofFactor (.ofBase b)), rfl⟩

end Place

/-! ## Sentences and their beginnings -/

theorem Viable.of_append {ts us : List Terminal} (h : Viable (ts ++ us)) : Viable ts := by
  obtain ⟨behind, h⟩ := h
  exact ⟨us ++ behind, by rwa [← List.append_assoc]⟩

/-- What has been written becomes a sentence by closing its groups. -/
theorem Written.viable {n : Nat} {ts : List Terminal} (h : Written n ts) : Viable ts := by
  induction n generalizing ts with
  | zero => exact ⟨[], by rwa [List.append_nil]⟩
  | succ n ih => exact (ih h.close).of_append

/-- Whatever place has been reached, an operand and the missing parentheses complete it. -/
theorem Place.Reached.viable {p : Place} {ts : List Terminal} (h : p.Reached ts) : Viable ts := by
  cases p with
  | before n => exact (Written.viable (h.numeral "0")).of_append
  | behind n => exact Written.viable h

/-- **A sentence leads behind an operand with no group open.** -/
theorem sentence_iff {ts : List Terminal} :
    Sentence ts ↔ walk (.before 0) ts = some (.behind 0) := by
  constructor
  · rintro ⟨s, rfl⟩
    exact s.walk_yield 0
  · exact fun h => Place.reached_nil.walk h

/-- **A viable list of terminals leads to some place.** -/
theorem viable_iff {ts : List Terminal} : Viable ts ↔ ∃ q, walk (.before 0) ts = some q := by
  constructor
  · rintro ⟨behind, h⟩
    have hwalk := sentence_iff.1 h
    rw [walk_append] at hwalk
    obtain ⟨q, hq, -⟩ := Option.bind_eq_some_iff.1 hwalk
    exact ⟨q, hq⟩
  · rintro ⟨q, hq⟩
    have hreached := Place.reached_nil.walk hq
    exact hreached.viable

end KeypadCalc.Grammar
