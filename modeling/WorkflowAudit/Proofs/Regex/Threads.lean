import Mathlib.Data.List.TakeWhile
import WorkflowAudit.Proofs.Regex.Layout

/-!
# Running a program finds a match where there is one

All threads of a run are followed at once, and a place that one of them has visited
is left out for the others.  Nothing is lost by that: a visited place that accepts
does so through a thread that waits already or through a place that is still to be
followed, and from there in fewer steps.  So the threads that wait in the end accept
just where those that were followed did, and by induction on the text a run finds a
match if and only if the start of the program accepts at some position.
-/

namespace WorkflowAudit.Regex

/-! ## Fuel -/

/-- What following the places that have not been visited can cost. -/
def followCost : List Instruction → List Bool → Nat
  | i :: code, visited :: others =>
      (if visited then 0 else i.targets.length + 1) + followCost code others
  | _, _ => 0

theorem followCost_set {code : List Instruction} {visited : List Bool} {place : Nat}
    (hplace : visited[place]? = some false) :
    followCost code (visited.set place true) +
        code[place]?.elim 0 (fun i => i.targets.length + 1) =
      followCost code visited := by
  induction code generalizing visited place with
  | nil => simp [followCost]
  | cons i code ih =>
      cases visited with
      | nil => simp at hplace
      | cons seen others =>
          cases place with
          | zero =>
              obtain rfl : seen = false := by simpa using hplace
              simp only [List.set_cons_zero, followCost, List.getElem?_cons_zero, Option.elim_some,
                if_true, Bool.false_eq_true, if_false]
              omega
          | succ place =>
              have hrest := @ih others place (by simpa using hplace)
              simp only [List.set_cons_succ, followCost, List.getElem?_cons_succ]
              omega

theorem followCost_le_foldl (code : List Instruction) (visited : List Bool) (fuel : Nat) :
    followCost code visited + fuel ≤
      code.foldl (fun fuel i => fuel + i.targets.length + 1) fuel := by
  induction code generalizing visited fuel with
  | nil => simp [followCost]
  | cons i code ih =>
      have hrest := fun others => ih others (fuel + i.targets.length + 1)
      cases visited with
      | nil =>
          have := hrest []
          simp only [followCost, List.foldl_cons] at this ⊢
          omega
      | cons seen others =>
          have := hrest others
          simp only [followCost, List.foldl_cons]
          split <;> omega

namespace Program

theorem followCost_lt_followFuel (program : Program) (visited : List Bool) :
    followCost program.code.toList visited + 1 < program.followFuel := by
  have := followCost_le_foldl program.code.toList visited 2
  unfold followFuel
  rw [← Array.foldl_toList]
  omega

/-! ## Following places -/

variable {program : Program} {p : Position}

/-- Some thread accepts at a position. -/
def IsLive (program : Program) (p : Position) (threads : List Thread) : Prop :=
  ∃ thread ∈ threads, Accepts program.code thread.place p

theorem isLive_cons {thread : Thread} {threads : List Thread} :
    program.IsLive p (thread :: threads) ↔
      Accepts program.code thread.place p ∨ program.IsLive p threads := by
  simp [IsLive]

theorem isLive_singleton {thread : Thread} :
    program.IsLive p [thread] ↔ Accepts program.code thread.place p := by
  simp [IsLive]

theorem isLive_append {threads others : List Thread} :
    program.IsLive p (threads ++ others) ↔ program.IsLive p threads ∨ program.IsLive p others := by
  simp [IsLive, or_and_right, exists_or]

/-- A visited place that accepts does so through a waiting thread, or in fewer steps
through a place that is still to be followed. -/
def Covers (program : Program) (p : Position) (front : Front) (work : List Nat) : Prop :=
  ∀ steps place, front.visited.getD place true = true →
    AcceptsIn program.code steps place p →
      program.IsLive p front.waiting ∨
        ∃ next ∈ work, ∃ fewer, fewer < steps ∧ AcceptsIn program.code fewer next p

/-- A place that has been visited before need not be followed. -/
theorem Covers.drop {front : Front} {place : Nat} {work : List Nat}
    (hcovers : program.Covers p front (place :: work))
    (hvisited : front.visited.getD place true = true) : program.Covers p front work := by
  -- The place itself may be what covers another one, and then is covered in fewer steps.
  intro steps
  induction steps using Nat.strongRecOn with
  | _ steps ih =>
      intro other hother haccepts
      rcases hcovers steps other hother haccepts with hlive | ⟨next, hmem, fewer, hlt, hnext⟩
      · exact .inl hlive
      · rcases List.mem_cons.1 hmem with rfl | hmem
        · rcases ih fewer hlt next hvisited hnext with hlive | ⟨next, hmem, least, hless, hnext⟩
          · exact .inl hlive
          · exact .inr ⟨next, hmem, least, Nat.lt_trans hless hlt, hnext⟩
        · exact .inr ⟨next, hmem, fewer, hlt, hnext⟩

/-- A place is replaced by threads and places through which it accepts. -/
theorem Covers.visit {front : Front} {place : Nat} {work targets : List Nat}
    {threads : List Thread} (hcovers : program.Covers p front (place :: work))
    (hvisit : ∀ {steps : Nat}, AcceptsIn program.code steps place p →
      program.IsLive p threads ∨
        ∃ next ∈ targets, ∃ fewer, fewer < steps ∧ AcceptsIn program.code fewer next p) :
    program.Covers p
      { visited := front.visited.setIfInBounds place true, waiting := threads ++ front.waiting }
      (targets ++ work) := by
  have hplace : ∀ {steps : Nat}, AcceptsIn program.code steps place p →
      program.IsLive p (threads ++ front.waiting) ∨
        ∃ next ∈ targets ++ work, ∃ fewer, fewer < steps ∧
          AcceptsIn program.code fewer next p := by
    intro steps haccepts
    rcases hvisit haccepts with hlive | ⟨next, hmem, fewer⟩
    · exact .inl (isLive_append.2 (.inl hlive))
    · exact .inr ⟨next, List.mem_append_left _ hmem, fewer⟩
  intro steps other hother haccepts
  by_cases heq : other = place
  · subst heq
    exact hplace haccepts
  · have hbefore : front.visited.getD other true = true := by
      simpa [Array.getD_eq_getD_getElem?, Array.getElem?_setIfInBounds_ne (Ne.symm heq)]
        using hother
    rcases hcovers steps other hbefore haccepts with hlive | ⟨next, hmem, fewer, hlt, hnext⟩
    · exact .inl (isLive_append.2 (.inr hlive))
    · rcases List.mem_cons.1 hmem with rfl | hmem
      · rcases hplace hnext with hlive | ⟨next, hmem, least, hless, hnext⟩
        · exact .inl hlive
        · exact .inr ⟨next, hmem, least, Nat.lt_trans hless hlt, hnext⟩
      · exact .inr ⟨next, List.mem_append_right _ hmem, fewer, hlt, hnext⟩

/-- A thread waits: it is at no instruction that is followed at once. -/
def IsWaiting (program : Program) (thread : Thread) : Prop :=
  ∀ i, program.code[thread.place]? = some i →
    i = .accept ∨ ∃ set next, i = .consume set next

/-- What following places makes of a front. -/
structure Follows (program : Program) (p : Position) (front : Front) (work : List Nat)
    (final : Front) : Prop where
  covers : program.Covers p final []
  isLive_iff : program.IsLive p final.waiting ↔
    program.IsLive p front.waiting ∨ ∃ place ∈ work, Accepts program.code place p
  waits : ∀ thread ∈ final.waiting, thread ∈ front.waiting ∨ program.IsWaiting thread

/-- A place that has been visited before adds nothing to what is followed. -/
theorem Follows.of_visited {front final : Front} {place : Nat} {work : List Nat}
    (hcovers : program.Covers p front (place :: work))
    (hvisited : front.visited.getD place true = true)
    (hfollows : program.Follows p front work final) :
    program.Follows p front (place :: work) final := by
  refine ⟨hfollows.covers, ?_, hfollows.waits⟩
  rw [hfollows.isLive_iff]
  constructor
  · rintro (hlive | ⟨next, hmem, haccepts⟩)
    · exact .inl hlive
    · exact .inr ⟨next, List.mem_cons_of_mem _ hmem, haccepts⟩
  · rintro (hlive | ⟨next, hmem, steps, haccepts⟩)
    · exact .inl hlive
    · rcases List.mem_cons.1 hmem with rfl | hmem
      · rcases hcovers.drop hvisited steps next hvisited haccepts with
          hlive | ⟨next, hmem, fewer, -, h⟩
        · exact .inl hlive
        · exact .inr ⟨next, hmem, fewer, h⟩
      · exact .inr ⟨next, hmem, steps, haccepts⟩

/-- Threads that wait and places that are followed next accept together where a place does.
The instruction at the place names them, which pays for following them. -/
structure Replaces (program : Program) (p : Position) (place : Nat) (threads : List Thread)
    (targets : List Nat) : Prop where
  visit : ∀ {steps : Nat}, AcceptsIn program.code steps place p →
    program.IsLive p threads ∨
      ∃ next ∈ targets, ∃ fewer, fewer < steps ∧ AcceptsIn program.code fewer next p
  back : (program.IsLive p threads ∨ ∃ next ∈ targets, Accepts program.code next p) →
    Accepts program.code place p
  waits : ∀ thread ∈ threads, program.IsWaiting thread
  named : targets.length ≤ program.code[place]?.elim 0 fun i => i.targets.length + 1

theorem replaces_require {place next : Nat} {a : Assertion}
    (hplace : program.code[place]? = some (.require a next))
    (hholds : a.holds p.before p.ahead.head? = true) : program.Replaces p place [] [next] where
  visit {steps} haccepts := by
    cases steps with
    | zero => exact haccepts.elim
    | succ steps =>
        exact .inr ⟨next, List.mem_singleton_self _, steps, Nat.lt_succ_self _,
          ((acceptsIn_require hplace).1 haccepts).2⟩
  back := by
    rintro (hlive | ⟨next', hmem, steps, haccepts⟩)
    · simp [IsLive] at hlive
    · rw [List.mem_singleton.1 hmem] at haccepts
      exact ⟨steps + 1, (acceptsIn_require hplace).2 ⟨hholds, haccepts⟩⟩
  waits := by simp
  named := by simp [hplace]

theorem replaces_require_of_not_holds {place next : Nat} {a : Assertion}
    (hplace : program.code[place]? = some (.require a next))
    (hfails : ¬a.holds p.before p.ahead.head? = true) : program.Replaces p place [] [] where
  visit {steps} haccepts := by
    cases steps with
    | zero => exact haccepts.elim
    | succ steps => exact absurd ((acceptsIn_require hplace).1 haccepts).1 hfails
  back := by simp [IsLive]
  waits := by simp
  named := by simp

theorem replaces_branch {place : Nat} {targets : List Nat}
    (hplace : program.code[place]? = some (.branch targets)) :
    program.Replaces p place [] targets where
  visit {steps} haccepts := by
    cases steps with
    | zero => exact haccepts.elim
    | succ steps =>
        obtain ⟨next, hmem, hnext⟩ := (acceptsIn_branch hplace).1 haccepts
        exact .inr ⟨next, hmem, steps, Nat.lt_succ_self _, hnext⟩
  back := by
    rintro (hlive | ⟨next, hmem, steps, haccepts⟩)
    · simp [IsLive] at hlive
    · exact ⟨steps + 1, (acceptsIn_branch hplace).2 ⟨next, hmem, haccepts⟩⟩
  waits := by simp
  named := by simp [hplace, Instruction.targets]

theorem replaces_waiting {thread : Thread} (hwaiting : program.IsWaiting thread) :
    program.Replaces p thread.place [thread] [] where
  visit haccepts := .inl (isLive_singleton.2 ⟨_, haccepts⟩)
  back := by simp [IsLive]
  waits := by simpa using hwaiting
  named := by simp

/-- A place that has not been visited is followed by following what replaces it. -/
theorem Follows.of_replaces {threads : List Thread} {targets : List Nat} {front final : Front}
    {fuel place : Nat} {work : List Nat} (hreplaces : program.Replaces p place threads targets)
    (hnew : ¬front.visited.getD place true = true)
    (hfuel : followCost program.code.toList front.visited.toList + (place :: work).length ≤
      fuel + 1)
    (hcovers : program.Covers p front (place :: work))
    (hrest : let front := { visited := front.visited.setIfInBounds place true
                            waiting := threads ++ front.waiting }
      followCost program.code.toList front.visited.toList + (targets ++ work).length ≤ fuel →
        program.Covers p front (targets ++ work) →
          program.Follows p front (targets ++ work) final) :
    program.Follows p front (place :: work) final := by
  have hnamed := hreplaces.named
  have hset : followCost program.code.toList (front.visited.toList.set place true) +
      program.code[place]?.elim 0 (fun i => i.targets.length + 1) =
        followCost program.code.toList front.visited.toList := by
    rw [← Array.getElem?_toList]
    apply followCost_set
    rw [Array.getElem?_toList]
    cases hplace : front.visited[place]? with
    | none => simp [Array.getD_eq_getD_getElem?, hplace] at hnew
    | some seen => simpa [Array.getD_eq_getD_getElem?, hplace] using hnew
  rw [List.length_cons] at hfuel
  have hfollows := hrest (by simp only [Array.toList_setIfInBounds, List.length_append]; omega)
    (hcovers.visit hreplaces.visit)
  refine ⟨hfollows.covers, ?_, fun thread hmem => ?_⟩
  · have hplace : Accepts program.code place p ↔
        program.IsLive p threads ∨ ∃ next ∈ targets, Accepts program.code next p := by
      refine ⟨fun ⟨steps, haccepts⟩ => ?_, hreplaces.back⟩
      rcases hreplaces.visit haccepts with hlive | ⟨next, hmem, fewer, -, h⟩
      · exact .inl hlive
      · exact .inr ⟨next, hmem, fewer, h⟩
    rw [hfollows.isLive_iff, isLive_append]
    simp only [List.mem_append, List.mem_cons, or_and_right, exists_or, exists_eq_left, hplace]
    simp only [or_assoc, or_left_comm]
  · rcases hfollows.waits thread hmem with hthread | hthread
    · rcases List.mem_append.1 hthread with hthread | hthread
      · exact .inr (hreplaces.waits thread hthread)
      · exact .inl hthread
    · exact .inr hthread

theorem follows_follow (start : Nat) {fuel : Nat} {work : List Nat} {front : Front}
    (hfuel : followCost program.code.toList front.visited.toList + work.length ≤ fuel)
    (hcovers : program.Covers p front work) :
    program.Follows p front work
      (program.follow p.before p.ahead.head? start fuel work front) := by
  fun_induction follow program p.before p.ahead.head? start fuel work front with
  | case1 work front =>
      obtain rfl : work = [] := List.eq_nil_of_length_eq_zero (by omega)
      exact ⟨hcovers, by simp, fun _ h => .inl h⟩
  | case2 front => exact ⟨hcovers, by simp, fun _ h => .inl h⟩
  | case3 fuel place work front hvisited ih =>
      have hrest := ih (by simp only [List.length_cons] at hfuel; omega) (hcovers.drop hvisited)
      exact hrest.of_visited hcovers hvisited
  | case4 fuel place work front hnew _ a next hplace work' ih =>
      by_cases hholds : a.holds p.before p.ahead.head? = true
      · have hwork : work' = [next] ++ work := if_pos hholds
        rw [hwork] at ih ⊢
        exact .of_replaces (replaces_require hplace hholds) hnew hfuel hcovers ih
      · have hwork : work' = [] ++ work := if_neg hholds
        rw [hwork] at ih ⊢
        exact .of_replaces (replaces_require_of_not_holds hplace hholds) hnew hfuel hcovers ih
  | case5 fuel place work front hnew _ targets hplace ih =>
      exact .of_replaces (replaces_branch hplace) hnew hfuel hcovers ih
  | case6 fuel place work front hnew _ hrequire hbranch ih =>
      have hwaiting : program.IsWaiting ⟨place, start⟩ := by
        intro i hi
        cases i with
        | accept => exact .inl rfl
        | consume set next => exact .inr ⟨set, next, rfl⟩
        | require a next => exact (hrequire a next hi).elim
        | branch targets => exact (hbranch targets hi).elim
      exact .of_replaces (replaces_waiting hwaiting) hnew hfuel hcovers ih

/-- At the start of a step nothing has been visited. -/
theorem covers_start : program.Covers p { visited := .replicate program.code.size false } [] := by
  intro steps place hvisited haccepts
  have hplace : program.code[place]? = none := by
    rw [Array.getElem?_eq_none_iff]
    by_contra hlt
    simp [Array.getD_eq_getD_getElem?, Nat.not_le.1 hlt] at hvisited
  cases steps with
  | zero => exact haccepts.elim
  | succ steps => simp [AcceptsIn, hplace] at haccepts

/-- What waits once threads have been followed one after the other. -/
theorem foldl_follow (threads : List Thread) {front : Front}
    (hcovers : program.Covers p front []) :
    (program.IsLive p (threads.foldl (fun front thread =>
        program.follow p.before p.ahead.head? thread.start program.followFuel [thread.place] front)
        front).waiting ↔ program.IsLive p front.waiting ∨ program.IsLive p threads) ∧
      ∀ thread ∈ (threads.foldl (fun front thread =>
        program.follow p.before p.ahead.head? thread.start program.followFuel [thread.place] front)
        front).waiting, thread ∈ front.waiting ∨ program.IsWaiting thread := by
  induction threads generalizing front with
  | nil => exact ⟨by simp [IsLive], fun _ h => .inl h⟩
  | cons first threads ih =>
      have hfuel := program.followCost_lt_followFuel front.visited.toList
      have hmore : program.Covers p front [first.place] := fun steps place hvisited haccepts =>
        (hcovers steps place hvisited haccepts).imp_right fun ⟨_, hmem, _⟩ =>
          absurd hmem List.not_mem_nil
      have hfirst := follows_follow first.start (Nat.le_of_lt hfuel) hmore
      obtain ⟨hlive, hwaits⟩ := ih hfirst.covers
      rw [List.foldl_cons]
      refine ⟨?_, fun thread hmem => ?_⟩
      · rw [hlive, hfirst.isLive_iff, isLive_cons, or_assoc]
        simp
      · exact (hwaits thread hmem).elim (hfirst.waits thread) .inr

theorem isLive_frontOf (program : Program) (p : Position) (threads : List Thread) :
    program.IsLive p (program.frontOf program.followFuel p.before p.ahead.head? threads) ↔
      program.IsLive p threads := by
  have hlive := (foldl_follow threads (@covers_start program p)).1
  simpa [frontOf, IsLive] using hlive

theorem isWaiting_of_mem_frontOf {threads : List Thread} {thread : Thread}
    (hmem : thread ∈ program.frontOf program.followFuel p.before p.ahead.head? threads) :
    program.IsWaiting thread := by
  have hwaits := (foldl_follow threads (@covers_start program p)).2
  rcases hwaits thread (List.mem_reverse.1 hmem) with hnone | hwaiting
  · cases hnone
  · exact hwaiting

/-! ## Runs -/

/-- A waiting thread accepts where it stands or behind the next character. -/
theorem accepts_of_isWaiting {thread : Thread} (hwaiting : program.IsWaiting thread) :
    Accepts program.code thread.place p ↔
      program.isAccepting thread = true ∨
        ∃ c rest next, p.ahead = c :: rest ∧ program.advance c thread = some next ∧
          Accepts program.code next.place ⟨some c, rest⟩ := by
  cases hplace : program.code[thread.place]? with
  | none =>
      have hnever : ¬Accepts program.code thread.place p := by
        rintro ⟨steps, haccepts⟩
        cases steps <;> simp [AcceptsIn, hplace] at haccepts
      simp [hnever, isAccepting, advance, hplace]
  | some i =>
      rcases hwaiting i hplace with rfl | ⟨set, next, rfl⟩
      · simpa [isAccepting, hplace] using ⟨1, acceptsIn_accept hplace⟩
      · constructor
        · rintro ⟨steps, haccepts⟩
          cases steps with
          | zero => exact haccepts.elim
          | succ steps =>
              obtain ⟨c, rest, hahead, hmem, hnext⟩ := (acceptsIn_consume hplace).1 haccepts
              refine .inr ⟨c, rest, { thread with place := next }, hahead, ?_, steps, hnext⟩
              simp [advance, hplace, hmem]
        · rintro (haccepting | ⟨c, rest, after, hahead, hadvance, steps, hnext⟩)
          · simp [isAccepting, hplace] at haccepting
          · simp only [advance, hplace] at hadvance
            split at hadvance
            · next hmem =>
                cases hadvance
                exact ⟨steps + 1, (acceptsIn_consume hplace).2 ⟨c, rest, hahead, hmem, hnext⟩⟩
            · cases hadvance

/-- A match that has been found stays found. -/
theorem isSome_run_of_isSome {fuel position : Nat} {found : Option (Nat × Nat)}
    {before : Option Char} {threads : List Thread} {text : List Char}
    (hfound : found.isSome = true) :
    (program.run fuel found before position threads text).isSome = true := by
  induction text generalizing found before position threads with
  | nil =>
      simp only [run]
      split
      · rfl
      · exact hfound
  | cons c rest ih =>
      simp only [run, hfound, if_true]
      split
      · split
        · rfl
        · exact ih rfl
      · split
        · exact hfound
        · exact ih hfound

/-- Threads that wait and do not accept where they stand do so behind the next
character, if there is one. -/
theorem isLive_iff_of_not_accepting {threads : List Thread}
    (hwaits : ∀ thread ∈ threads, program.IsWaiting thread)
    (hnone : ∀ thread ∈ threads, program.isAccepting thread = false) :
    program.IsLive p threads ↔
      ∃ c rest, p.ahead = c :: rest ∧
        program.IsLive ⟨some c, rest⟩ (threads.filterMap (program.advance c)) := by
  constructor
  · rintro ⟨thread, hmem, haccepts⟩
    rcases (accepts_of_isWaiting (hwaits thread hmem)).1 haccepts with
      haccepting | ⟨c, rest, next, hahead, hadvance, hnext⟩
    · rw [hnone thread hmem] at haccepting
      cases haccepting
    · exact ⟨c, rest, hahead, next, List.mem_filterMap.2 ⟨thread, hmem, hadvance⟩, hnext⟩
  · rintro ⟨c, rest, hahead, next, hmem, hnext⟩
    obtain ⟨thread, hthread, hadvance⟩ := List.mem_filterMap.1 hmem
    exact ⟨thread, hthread, (accepts_of_isWaiting (hwaits thread hthread)).2
      (.inr ⟨c, rest, next, hahead, hadvance, hnext⟩)⟩

theorem isLive_of_find? {threads : List Thread} {thread : Thread}
    (hwaits : ∀ thread ∈ threads, program.IsWaiting thread)
    (hfind : threads.find? program.isAccepting = some thread) : program.IsLive p threads :=
  have hmem := List.mem_of_find?_eq_some hfind
  ⟨thread, hmem, (accepts_of_isWaiting (hwaits thread hmem)).2 (.inl (List.find?_some hfind))⟩

/-- A run finds a match if and only if one of its threads accepts, or the start of
the program does here or further on. -/
theorem isSome_run_iff {before : Option Char} {position : Nat} {threads : List Thread}
    {text : List Char} :
    (program.run program.followFuel none before position threads text).isSome = true ↔
      program.IsLive ⟨before, text⟩ threads ∨
        ∃ p, Position.Leads ⟨before, text⟩ p ∧ Accepts program.code program.start p := by
  induction text generalizing before position threads with
  | nil =>
      have hlive := program.isLive_frontOf ⟨before, []⟩ (threads ++ [⟨program.start, position⟩])
      have hwaits := fun thread => @isWaiting_of_mem_frontOf program ⟨before, []⟩
        (threads ++ [⟨program.start, position⟩]) thread
      simp only [run, Option.isSome_none, Bool.false_eq_true, if_false, Position.leads_nil,
        exists_eq_left]
      rw [isLive_append, isLive_singleton] at hlive
      rw [← hlive]
      split
      · next hfind => simpa using isLive_of_find? hwaits hfind
      · next hfind =>
          have hnone := fun thread hmem =>
            eq_false_of_ne_true (List.find?_eq_none.1 hfind thread hmem)
          rw [isLive_iff_of_not_accepting hwaits hnone]
          simp
  | cons c rest ih =>
      -- A new thread starts at this position; behind it the induction hypothesis speaks of
      -- the threads that have read the character.
      have hlive := program.isLive_frontOf ⟨before, c :: rest⟩
        (threads ++ [⟨program.start, position⟩])
      have hwaits := fun thread => @isWaiting_of_mem_frontOf program ⟨before, c :: rest⟩
        (threads ++ [⟨program.start, position⟩]) thread
      simp only [run, Option.isSome_none, Bool.false_eq_true, if_false, Position.leads_cons,
        or_and_right, exists_or, exists_eq_left]
      rw [isLive_append, isLive_singleton] at hlive
      rw [← or_assoc, ← hlive]
      split
      · next hfind =>
          refine iff_of_true ?_ (.inl (isLive_of_find? hwaits hfind))
          split
          · rfl
          · exact isSome_run_of_isSome rfl
      · next hfind =>
          have hnone := fun thread hmem =>
            eq_false_of_ne_true (List.find?_eq_none.1 hfind thread hmem)
          rw [isLive_iff_of_not_accepting hwaits hnone]
          rw [List.takeWhile_eq_self_iff.2 (by simpa using hnone)]
          simp [ih]

/-- A program finds a match in a text if and only if its start accepts at some
position of the text. -/
theorem isMatch_iff (program : Program) (text : List Char) :
    program.isMatch text = true ↔
      ∃ p, (Position.start text).Leads p ∧ Accepts program.code program.start p := by
  unfold isMatch find?
  rw [Option.isSome_map, isSome_run_iff]
  simp [IsLive, Position.start]

end Program

/-- The program of an expression finds a match in a text if and only if there is
one. -/
theorem isMatch_ofRegex_iff {regex : Regex} (hordered : regex.IsOrdered) (text : List Char) :
    (Program.ofRegex regex).isMatch text = true ↔ regex.MatchesWithin text := by
  rw [Program.isMatch_iff]
  simp only [accepts_ofRegex_iff hordered, MatchesWithin]
  grind

end WorkflowAudit.Regex
