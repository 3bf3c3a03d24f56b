import WorkflowAudit.Proofs.Regex.Semantics

/-!
# Programs match what their expressions match

A place of a program accepts at a position of the text when some way from there
ends in an accepting instruction.  Each function that lays out code connects the
place where its code starts with the place where matching goes on, by the relation
of what the code matches: whoever comes to the start can go on behind a match, and
in no other way.  Connections compose along sequences, and around a loop by
induction on the number of steps.
-/

namespace WorkflowAudit.Regex

/-- A place accepts at a position within so many steps. -/
def AcceptsIn (code : Array Instruction) : Nat → Nat → Position → Prop
  | 0, _, _ => False
  | steps + 1, place, p =>
      match code[place]? with
      | some .accept => True
      | some (.consume set next) =>
          ∃ c rest, p.ahead = c :: rest ∧ set.contains c = true ∧
            AcceptsIn code steps next ⟨some c, rest⟩
      | some (.require a next) =>
          a.holds p.before p.ahead.head? = true ∧ AcceptsIn code steps next p
      | some (.branch targets) => ∃ target ∈ targets, AcceptsIn code steps target p
      | none => False

/-- A place accepts at a position. -/
def Accepts (code : Array Instruction) (place : Nat) (p : Position) : Prop :=
  ∃ steps, AcceptsIn code steps place p

section Steps

variable {code : Array Instruction} {place next : Nat} {p : Position}

theorem AcceptsIn.succ {steps : Nat} (haccepts : AcceptsIn code steps place p) :
    AcceptsIn code (steps + 1) place p := by
  induction steps generalizing place p with
  | zero => exact haccepts.elim
  | succ steps ih =>
      unfold AcceptsIn at haccepts ⊢
      cases hplace : code[place]? with
      | none => simp [hplace] at haccepts
      | some i =>
          cases i with
          | accept => trivial
          | consume set next =>
              simp only [hplace] at haccepts ⊢
              obtain ⟨c, rest, hahead, hmem, hnext⟩ := haccepts
              exact ⟨c, rest, hahead, hmem, ih hnext⟩
          | require a next =>
              simp only [hplace] at haccepts ⊢
              exact ⟨haccepts.1, ih haccepts.2⟩
          | branch targets =>
              simp only [hplace] at haccepts ⊢
              obtain ⟨target, hmem, htarget⟩ := haccepts
              exact ⟨target, hmem, ih htarget⟩

theorem acceptsIn_consume {set : CharSet} (hplace : code[place]? = some (.consume set next))
    {steps : Nat} : AcceptsIn code (steps + 1) place p ↔
      ∃ c rest, p.ahead = c :: rest ∧ set.contains c = true ∧
        AcceptsIn code steps next ⟨some c, rest⟩ := by
  simp only [AcceptsIn, hplace]

theorem acceptsIn_require {a : Assertion} (hplace : code[place]? = some (.require a next))
    {steps : Nat} : AcceptsIn code (steps + 1) place p ↔
      a.holds p.before p.ahead.head? = true ∧ AcceptsIn code steps next p := by
  simp only [AcceptsIn, hplace]

theorem acceptsIn_branch {targets : List Nat} (hplace : code[place]? = some (.branch targets))
    {steps : Nat} : AcceptsIn code (steps + 1) place p ↔
      ∃ target ∈ targets, AcceptsIn code steps target p := by
  simp only [AcceptsIn, hplace]

theorem acceptsIn_accept (hplace : code[place]? = some .accept) {steps : Nat} :
    AcceptsIn code (steps + 1) place p := by
  simp only [AcceptsIn, hplace]

end Steps

/-! ## Connections -/

/-- Whoever comes to one place can go on at another one behind a match, and in no
other way. -/
structure Connects (code : Array Instruction) (entry : Nat) (R : Position → Position → Prop)
    (next : Nat) : Prop where
  sound : ∀ {steps : Nat} {p : Position}, AcceptsIn code steps entry p →
    ∃ q, R p q ∧ AcceptsIn code steps next q
  complete : ∀ {p q : Position}, R p q → Accepts code next q → Accepts code entry p

section Connections

variable {code : Array Instruction} {entry middle next : Nat} {R S : Position → Position → Prop}

theorem Connects.refl : Connects code next Eq next where
  sound haccepts := ⟨_, rfl, haccepts⟩
  complete := by
    rintro p q rfl haccepts
    exact haccepts

theorem Connects.comp (hfirst : Connects code entry R middle)
    (hrest : Connects code middle S next) :
    Connects code entry (Relation.Comp R S) next where
  sound haccepts := by
    obtain ⟨q, hR, hmiddle⟩ := hfirst.sound haccepts
    obtain ⟨r, hS, hnext⟩ := hrest.sound hmiddle
    exact ⟨r, ⟨q, hR, hS⟩, hnext⟩
  complete := by
    rintro p r ⟨q, hR, hS⟩ haccepts
    exact hfirst.complete hR (hrest.complete hS haccepts)

theorem connects_consume {set : CharSet} {unicode : Bool}
    (hentry : code[entry]? = some (.consume set next)) :
    Connects code entry (Matches (.chars set unicode)) next where
  sound {steps p} haccepts := by
    cases steps with
    | zero => exact haccepts.elim
    | succ steps =>
        obtain ⟨c, rest, hahead, hmem, hnext⟩ := (acceptsIn_consume hentry).1 haccepts
        exact ⟨_, ⟨c, rest, hahead, hmem, rfl⟩, hnext.succ⟩
  complete := by
    rintro p q ⟨c, rest, hahead, hmem, rfl⟩ ⟨steps, hnext⟩
    exact ⟨steps + 1, (acceptsIn_consume hentry).2 ⟨c, rest, hahead, hmem, hnext⟩⟩

theorem connects_require {a : Assertion} (hentry : code[entry]? = some (.require a next)) :
    Connects code entry (Matches (.assertion a)) next where
  sound {steps p} haccepts := by
    cases steps with
    | zero => exact haccepts.elim
    | succ steps =>
        obtain ⟨hholds, hnext⟩ := (acceptsIn_require hentry).1 haccepts
        exact ⟨p, ⟨hholds, rfl⟩, hnext.succ⟩
  complete := by
    rintro p q ⟨hholds, rfl⟩ ⟨steps, hnext⟩
    exact ⟨steps + 1, (acceptsIn_require hentry).2 ⟨hholds, hnext⟩⟩

/-- Some places lead together where a relation leads. -/
structure ConnectsAny (code : Array Instruction) (entries : List Nat)
    (R : Position → Position → Prop) (next : Nat) : Prop where
  sound : ∀ {steps entry : Nat} {p : Position}, entry ∈ entries → AcceptsIn code steps entry p →
    ∃ q, R p q ∧ AcceptsIn code steps next q
  complete : ∀ {p q : Position}, R p q → Accepts code next q →
    ∃ entry ∈ entries, Accepts code entry p

theorem ConnectsAny.nil : ConnectsAny code [] (fun _ _ => False) next where
  sound hmem := absurd hmem List.not_mem_nil
  complete h := h.elim

theorem ConnectsAny.cons {entries : List Nat} (hfirst : Connects code entry R next)
    (hrest : ConnectsAny code entries S next) :
    ConnectsAny code (entry :: entries) (fun p q => R p q ∨ S p q) next where
  sound {steps place p} hmem haccepts := by
    rcases List.mem_cons.1 hmem with rfl | hmem
    · obtain ⟨q, hR, hnext⟩ := hfirst.sound haccepts
      exact ⟨q, .inl hR, hnext⟩
    · obtain ⟨q, hS, hnext⟩ := hrest.sound hmem haccepts
      exact ⟨q, .inr hS, hnext⟩
  complete := by
    rintro p q (hR | hS) hnext
    · exact ⟨entry, List.mem_cons_self, hfirst.complete hR hnext⟩
    · obtain ⟨place, hmem, haccepts⟩ := hrest.complete hS hnext
      exact ⟨place, List.mem_cons_of_mem _ hmem, haccepts⟩

theorem connects_branch {place : Nat} {entries : List Nat}
    (hplace : code[place]? = some (.branch entries)) (hentries : ConnectsAny code entries R next) :
    Connects code place R next where
  sound {steps p} haccepts := by
    cases steps with
    | zero => exact haccepts.elim
    | succ steps =>
        obtain ⟨entry, hmem, hentry⟩ := (acceptsIn_branch hplace).1 haccepts
        obtain ⟨q, hR, hnext⟩ := hentries.sound hmem hentry
        exact ⟨q, hR, hnext.succ⟩
  complete hR hnext := by
    obtain ⟨entry, hmem, steps, hentry⟩ := hentries.complete hR hnext
    exact ⟨steps + 1, (acceptsIn_branch hplace).2 ⟨entry, hmem, hentry⟩⟩

/-- A fork leads to both of its places, whichever it prefers. -/
theorem acceptsIn_fork {place into past : Nat} {greedy : Bool}
    (hplace : code[place]? = some (Program.fork greedy into past)) {steps : Nat} {p : Position} :
    AcceptsIn code (steps + 1) place p ↔
      AcceptsIn code steps into p ∨ AcceptsIn code steps past p := by
  rw [acceptsIn_branch hplace]
  cases greedy <;> simp [or_comm]

/-- A fork in front of one way to `next`, or of `next` itself. -/
theorem connects_fork {place : Nat} {greedy : Bool}
    (hplace : code[place]? = some (Program.fork greedy entry next))
    (hentry : Connects code entry R next) :
    Connects code place (fun p q => p = q ∨ R p q) next where
  sound {steps p} haccepts := by
    cases steps with
    | zero => exact haccepts.elim
    | succ steps =>
        rcases (acceptsIn_fork hplace).1 haccepts with hinto | hpast
        · obtain ⟨q, hR, hnext⟩ := hentry.sound hinto
          exact ⟨q, .inr hR, hnext.succ⟩
        · exact ⟨p, .inl rfl, hpast.succ⟩
  complete := by
    rintro p q (rfl | hR) hnext
    · obtain ⟨steps, hnext⟩ := hnext
      exact ⟨steps + 1, (acceptsIn_fork hplace).2 (.inr hnext)⟩
    · obtain ⟨steps, hinto⟩ := hentry.complete hR hnext
      exact ⟨steps + 1, (acceptsIn_fork hplace).2 (.inl hinto)⟩

/-- A fork that its own body leads back to is a loop.  Every pass takes a step at
the fork, so the passes are counted by the steps. -/
theorem connects_loop {loop : Nat} {greedy : Bool}
    (hloop : code[loop]? = some (Program.fork greedy entry next))
    (hbody : Connects code entry R loop) :
    Connects code loop (Relation.ReflTransGen R) next where
  sound {steps p} haccepts := by
    induction steps generalizing p with
    | zero => exact haccepts.elim
    | succ steps ih =>
        rcases (acceptsIn_fork hloop).1 haccepts with hinto | hpast
        · obtain ⟨q, hR, hagain⟩ := hbody.sound hinto
          obtain ⟨r, hmany, hnext⟩ := ih hagain
          exact ⟨r, .head hR hmany, hnext.succ⟩
        · exact ⟨p, .refl, hpast.succ⟩
  complete {p q} hmany hnext := by
    induction hmany using Relation.ReflTransGen.head_induction_on with
    | refl =>
        obtain ⟨steps, hnext⟩ := hnext
        exact ⟨steps + 1, (acceptsIn_fork hloop).2 (.inr hnext)⟩
    | head hfirst _ ih =>
        obtain ⟨steps, hinto⟩ := hbody.complete hfirst ih
        exact ⟨steps + 1, (acceptsIn_fork hloop).2 (.inl hinto)⟩

end Connections

/-! ## Layouts -/

/-- From one place on, the instructions of `code` stand in `final` as well. -/
def Retains (low : Nat) (code final : Array Instruction) : Prop :=
  ∀ i, low ≤ i → i < code.size → final[i]? = code[i]?

section Retaining

variable {low high : Nat} {code larger final : Array Instruction}

theorem Retains.refl : Retains low code code := fun _ _ _ => rfl

theorem Retains.size_le (hretains : Retains 0 code final) : code.size ≤ final.size := by
  by_contra hlt
  have hlast := hretains (code.size - 1) (Nat.zero_le _) (by omega)
  rw [Array.getElem?_eq_none (by omega), Array.getElem?_eq_getElem (by omega)] at hlast
  cases hlast

theorem Retains.weaken (hle : low ≤ high) (hretains : Retains low code final) :
    Retains high code final := fun i hlow => hretains i (Nat.le_trans hle hlow)

theorem Retains.trans (hfirst : Retains low code larger) (hsize : code.size ≤ larger.size)
    (hrest : Retains low larger final) : Retains low code final := fun i hlow hhigh =>
  (hrest i hlow (Nat.lt_of_lt_of_le hhigh hsize)).trans (hfirst i hlow hhigh)

theorem retains_push (i : Instruction) : Retains 0 code (code.push i) := by
  intro place _ hplace
  rw [Array.getElem?_push_lt hplace, Array.getElem?_eq_getElem hplace]

theorem Retains.getElem?_push {i : Instruction} (hretains : Retains low (code.push i) final)
    (hlow : low ≤ code.size) : final[code.size]? = some i := by
  rw [hretains code.size hlow (by simp), Array.getElem?_push_size]

end Retaining

/-- A function that adds code in front of a place: it changes no earlier code, and
what it adds matches by `R` before matching goes on at that place. -/
structure LaysOut (R : Position → Position → Prop)
    (layOut : Nat → Array Instruction → Nat × Array Instruction) : Prop where
  keeps : ∀ next code, Retains 0 code (layOut next code).2
  connects : ∀ {next : Nat} {code final : Array Instruction},
    Retains code.size (layOut next code).2 final → Connects final (layOut next code).1 R next

section Layouts

open Program

variable {R S : Position → Position → Prop}
  {layOut : Nat → Array Instruction → Nat × Array Instruction}

theorem laysOut_nothing : LaysOut Eq fun next code => (next, code) where
  keeps _ _ := .refl
  connects _ := .refl

/-- What is laid out last is matched first. -/
theorem LaysOut.comp {front : Nat → Array Instruction → Nat × Array Instruction}
    (hfront : LaysOut R front) (hback : LaysOut S layOut) :
    LaysOut (Relation.Comp R S) fun next code =>
      front (layOut next code).1 (layOut next code).2 where
  keeps next code := (hback.keeps next code).trans (hback.keeps next code).size_le
    (hfront.keeps _ _)
  connects {next code final} hfinal := by
    have hsize := (hback.keeps next code).size_le
    have hbetween := hfront.keeps (layOut next code).1 (layOut next code).2
    have hlater : Retains code.size (layOut next code).2 final :=
      (hbetween.weaken (Nat.zero_le _)).trans hbetween.size_le hfinal
    exact (hfront.connects (hfinal.weaken hsize)).comp (hback.connects hlater)

theorem laysOut_emit {i : Nat → Instruction}
    (hi : ∀ {final : Array Instruction} {place next : Nat}, final[place]? = some (i next) →
      Connects final place R next) :
    LaysOut R fun next code => emit code (i next) where
  keeps _ _ := retains_push _
  connects hfinal := hi (hfinal.getElem?_push (Nat.le_refl _))

theorem laysOut_copies (hbody : LaysOut R layOut) (count : Nat) :
    LaysOut (Times R count) (copies layOut count) := by
  induction count with
  | zero => exact laysOut_nothing
  | succ count ih =>
      rw [times_succ]
      exact ih.comp hbody

/-- The loop of one or more passes: its place, and what it leads to. -/
theorem connects_atLeastOnce (hbody : LaysOut R layOut) {greedy : Bool} {next : Nat}
    {code final : Array Instruction}
    (hfinal : Retains code.size (atLeastOnce layOut greedy next code).2.2 final) :
    Connects final (atLeastOnce layOut greedy next code).1 R
        (atLeastOnce layOut greedy next code).2.1 ∧
      Connects final (atLeastOnce layOut greedy next code).2.1 (Relation.ReflTransGen R) next := by
  have hkept := hbody.keeps code.size (code.push (.branch []))
  have hsize : code.size < (layOut code.size (code.push (.branch []))).2.size := by
    have := hkept.size_le
    rw [Array.size_push] at this
    omega
  simp only [atLeastOnce, emit] at hfinal ⊢
  have hloop := hfinal code.size (Nat.le_refl _) (by simpa using hsize)
  rw [Array.getElem?_setIfInBounds_self_of_lt hsize] at hloop
  have hpass : Connects final (layOut code.size (code.push (.branch []))).1 R code.size := by
    apply hbody.connects
    intro i hlow hhigh
    rw [Array.size_push] at hlow
    rw [hfinal i (by omega) (by simpa using hhigh), Array.getElem?_setIfInBounds_ne (by omega)]
  exact ⟨hpass, connects_loop hloop hpass⟩

theorem retains_atLeastOnce (hbody : LaysOut R layOut) (greedy : Bool) (next : Nat)
    (code : Array Instruction) : Retains 0 code (atLeastOnce layOut greedy next code).2.2 := by
  intro i _ hi
  simp only [atLeastOnce, emit]
  rw [Array.getElem?_setIfInBounds_ne (by omega),
    hbody.keeps _ _ i (Nat.zero_le _) (by rw [Array.size_push]; omega),
    retains_push _ i (Nat.zero_le _) hi]

theorem laysOut_atLeastOnce (hbody : LaysOut R layOut) (greedy : Bool) :
    LaysOut (Relation.Comp R (Relation.ReflTransGen R)) fun next code =>
      ((atLeastOnce layOut greedy next code).1, (atLeastOnce layOut greedy next code).2.2) where
  keeps := retains_atLeastOnce hbody greedy
  connects hfinal :=
    have ⟨hpass, hloop⟩ := connects_atLeastOnce hbody hfinal
    hpass.comp hloop

theorem laysOut_anyNumber (hbody : LaysOut R layOut) (greedy mayBeEmpty : Bool) :
    LaysOut (Relation.ReflTransGen R) (anyNumber layOut greedy mayBeEmpty) := by
  have hkept := retains_atLeastOnce hbody greedy
  cases mayBeEmpty with
  | false => exact ⟨hkept, fun hfinal => (connects_atLeastOnce hbody hfinal).2⟩
  | true =>
      refine ⟨fun next code => ?_, fun {next code final} hfinal => ?_⟩
      · exact (hkept next code).trans (hkept next code).size_le (retains_push _)
      · have hpushed := hfinal.getElem?_push (hkept next code).size_le
        have hloop := connects_atLeastOnce hbody
          (((retains_push _).weaken (Nat.zero_le _)).trans (by simp) hfinal)
        have hany := connects_fork hpushed (hloop.1.comp hloop.2)
        have heq : (fun p q => p = q ∨ Relation.Comp R (Relation.ReflTransGen R) p q) =
            Relation.ReflTransGen R := by
          funext p q
          rw [Relation.ReflTransGen.cases_head_iff (a := p)]
          rfl
        rwa [heq] at hany

theorem retains_upTo (hbody : LaysOut R layOut) (greedy : Bool) (exit count next : Nat)
    (code : Array Instruction) : Retains 0 code (upTo layOut greedy exit count next code).2 := by
  induction count generalizing next code with
  | zero => exact .refl
  | succ count ih =>
      have hkept := hbody.keeps next code
      have hpushed := hkept.trans hkept.size_le
        (retains_push (fork greedy (layOut next code).1 exit))
      exact hpushed.trans hpushed.size_le (ih _ _)

/-- Up to so many passes more, each of which can be the last. -/
theorem connects_upTo (hbody : LaysOut R layOut) {greedy : Bool} {exit count bound next : Nat}
    {code final : Array Instruction}
    (hfinal : Retains code.size (upTo layOut greedy exit count next code).2 final)
    (hnext : Connects final next (Within R 0 (some bound)) exit) :
    Connects final (upTo layOut greedy exit count next code).1
      (Within R 0 (some (bound + count))) exit := by
  induction count generalizing bound next code with
  | zero => exact hnext
  | succ count ih =>
      simp only [upTo, emit] at hfinal ⊢
      have hkept := hbody.keeps next code
      have hrest := retains_upTo hbody greedy exit count (layOut next code).2.size
        ((layOut next code).2.push (fork greedy (layOut next code).1 exit))
      have hpushed := (hrest.weaken (Nat.zero_le code.size)).trans hrest.size_le hfinal
      have hoptional := hpushed.getElem?_push hkept.size_le
      have hpass : Connects final (layOut next code).1 R next :=
        hbody.connects (((retains_push _).weaken (Nat.zero_le _)).trans (by simp) hpushed)
      have hanother := connects_fork hoptional (hpass.comp hnext)
      rw [← within_zero_succ] at hanother
      have hsize := hkept.size_le
      rw [← Nat.succ_add_eq_add_succ]
      exact ih (hfinal.weaken (by simp; omega)) hanother

theorem laysOut_upTo (hbody : LaysOut R layOut) (greedy : Bool) (count : Nat) :
    LaysOut (Within R 0 (some count)) fun next code =>
      upTo layOut greedy next count next code where
  keeps next code := retains_upTo hbody greedy next count next code
  connects {next code final} hfinal := by
    have hnone : Connects final next (Within R 0 (some 0)) next := by
      rw [within_zero_zero]
      exact .refl
    simpa using connects_upTo hbody hfinal hnone

/-- Lays out a repetition of a body within some bounds. -/
def layOutWithin (layOut : Nat → Array Instruction → Nat × Array Instruction)
    (greedy mayBeEmpty : Bool) (bounds : Nat × Option Nat) (next : Nat)
    (code : Array Instruction) : Nat × Array Instruction :=
  match bounds with
  | (0, none) => anyNumber layOut greedy mayBeEmpty next code
  | (least + 1, none) =>
      let (entry, _, code) := atLeastOnce layOut greedy next code
      copies layOut least entry code
  | (least, some most) =>
      let (entry, code) := upTo layOut greedy next (most - least) next code
      copies layOut least entry code

theorem layOut_repeated (least : Nat) (most : Option Nat) (greedy : Bool) (body : Regex) :
    Program.layOut (.repeated least most greedy body) =
      layOutWithin (Program.layOut body) greedy body.matchesEmpty
        (effectiveBounds least most body) := by
  funext next code
  rw [Program.layOut]
  unfold layOutWithin
  rfl

theorem laysOut_within (hbody : LaysOut R layOut) (greedy mayBeEmpty : Bool) {least : Nat}
    {most : Option Nat} (hordered : ∀ bound ∈ most, least ≤ bound) :
    LaysOut (Within R least most) (layOutWithin layOut greedy mayBeEmpty (least, most)) := by
  cases most with
  | none =>
      cases least with
      | zero =>
          rw [within_zero_none]
          exact laysOut_anyNumber hbody greedy mayBeEmpty
      | succ least =>
          have hwithin : Within R (least + 1) none =
              Relation.Comp (Times R least) (Relation.Comp R (Relation.ReflTransGen R)) := by
            rw [← within_zero_none, ← Relation.comp_assoc, ← times_succ]
            exact within_add (least + 1) 0 none
          rw [hwithin]
          exact (laysOut_copies hbody least).comp (laysOut_atLeastOnce hbody greedy)
  | some most =>
      have hle : least ≤ most := hordered most rfl
      have hwithin : Within R least (some most) =
          Relation.Comp (Times R least) (Within R 0 (some (most - least))) := by
        rw [← within_add least 0, Option.map_some, Nat.add_sub_cancel' hle, Nat.add_zero]
      have hlayout : layOutWithin layOut greedy mayBeEmpty (least, some most) = fun next code =>
          copies layOut least (upTo layOut greedy next (most - least) next code).1
            (upTo layOut greedy next (most - least) next code).2 := by
        cases least <;> rfl
      rw [hwithin, hlayout]
      exact (laysOut_copies hbody least).comp (laysOut_upTo hbody greedy (most - least))

/-! ## Whole programs -/

mutual

/-- The code of an expression matches what the expression matches. -/
theorem laysOut_layOut : ∀ (regex : Regex), regex.IsOrdered →
    LaysOut regex.Matches (Program.layOut regex)
  | .empty, _ => laysOut_nothing
  | .chars _ _, _ => laysOut_emit connects_consume
  | .assertion _, _ => laysOut_emit connects_require
  | .group _ body, hordered => laysOut_layOut body hordered
  | .repeated least most greedy body, hordered => by
      have hwithin := laysOut_within (laysOut_layOut body hordered.2) greedy body.matchesEmpty
        (@effectiveBounds_ordered _ _ body hordered.1)
      rw [within_effectiveBounds hordered.1] at hwithin
      rw [layOut_repeated]
      exact hwithin
  | .sequence parts, hordered => laysOut_layOutSequence parts hordered
  | .choice branches, hordered => by
      have hkept := (connects_layOutBranches branches hordered).1
      refine ⟨fun next code => ?_, fun {next code final} hfinal => ?_⟩
      · exact (hkept next code).trans (hkept next code).size_le (retains_push _)
      · exact connects_branch (hfinal.getElem?_push (hkept next code).size_le)
          ((connects_layOutBranches branches hordered).2
            (((retains_push _).weaken (Nat.zero_le _)).trans (by simp) hfinal))

theorem laysOut_layOutSequence : ∀ (parts : List Regex), AllOrdered parts →
    LaysOut (MatchesInOrder parts) (layOutSequence parts)
  | [], _ => laysOut_nothing
  | part :: rest, hordered =>
      (laysOut_layOut part hordered.1).comp (laysOut_layOutSequence rest hordered.2)

/-- The code of some alternatives, each of which goes on at the same place. -/
theorem connects_layOutBranches : ∀ (branches : List Regex), AllOrdered branches →
    (∀ next code, Retains 0 code (layOutBranches branches next code).2) ∧
      ∀ {next : Nat} {code final : Array Instruction},
        Retains code.size (layOutBranches branches next code).2 final →
          ConnectsAny final (layOutBranches branches next code).1 (MatchesOneOf branches) next
  | [], _ => ⟨fun _ _ => .refl, fun _ => .nil⟩
  | branch :: rest, hordered => by
      have hbranch := laysOut_layOut branch hordered.1
      obtain ⟨hkept, hrest⟩ := connects_layOutBranches rest hordered.2
      refine ⟨fun next code => ?_, fun {next code final} hfinal => ?_⟩
      · exact (hkept next code).trans (hkept next code).size_le (hbranch.keeps _ _)
      · have hbetween := hbranch.keeps next (layOutBranches rest next code).2
        have hlater := (hbetween.weaken (Nat.zero_le code.size)).trans hbetween.size_le hfinal
        exact .cons (hbranch.connects (hfinal.weaken (hkept next code).size_le)) (hrest hlater)

end

/-- The start of a program accepts just where its expression matches. -/
theorem accepts_ofRegex_iff {regex : Regex} (hordered : regex.IsOrdered) {p : Position} :
    Accepts (ofRegex regex).code (ofRegex regex).start p ↔ ∃ q, regex.Matches p q := by
  have hlayout := laysOut_layOut regex hordered
  have haccept : (ofRegex regex).code[0]? = some .accept :=
    hlayout.keeps 0 #[.accept] 0 (Nat.zero_le _) (by simp)
  have hconnects : Connects (ofRegex regex).code (ofRegex regex).start regex.Matches 0 :=
    hlayout.connects .refl
  constructor
  · rintro ⟨steps, haccepts⟩
    obtain ⟨q, hmatch, -⟩ := hconnects.sound haccepts
    exact ⟨q, hmatch⟩
  · rintro ⟨q, hmatch⟩
    exact hconnects.complete hmatch ⟨1, acceptsIn_accept haccept⟩

end Layouts

end WorkflowAudit.Regex
