import WorkflowAudit.Unicode.CharSet

/-!
# Simple case folding

Characters that differ only in case form an orbit of two to four characters.  A
set is closed under case when it holds whole orbits.
-/

namespace WorkflowAudit.Unicode

/-- Orbits of two characters. -/
def pairOrbits : String :=
  "c1b01b01b01b01b01b01b01b01b01b02b01b01b01b01b01b01b02b01b01b01b01b01b01b0d6b01b01b01b01b02b" ++
    "01b01b01b01b01b01b01b01b01b01b01b01b01b01b01b01b02b01b01b01b01b01b01b01hnVb0dP11212121212" ++
    "12121212121212121212121212121212121214121213121212121212121312121212121212121212121212121" ++
    "21212121212121213121213g31gI11212gE112gD1gD113cF1gA1gB112gD1gF1d11gJ1gH112f31bjs11gJ1gL1e" ++
    "21gM1121212gQ112gQ312gQ112gP1gP11212gR11413bOE1212121212121213121212121212121216141212121" ++
    "212121212121212121212121212121214121212121212121218krB113kr81krV1krV113c51c711212121212kq" ++
    "V1kqS1kqUAbjkF5bjkB3bjl71bjj81bjk44bjk41kpN1bjk15kpTCkp75bjk35bjjAMbjiL1bjiIgI121415e21e2" ++
    "1e22dK7b62b51b51b52c02bV1bV1hc31b02b01b02b01b04b02b01b01b05b01b02b01b02b01b05hbJV89121212" ++
    "121212121212121214751316cG1cG1cG1cG1cG1cG1cG1cG1cG1cG1cG1cG1cG1cG1cG1cG1b01b02b02b01b01b0" ++
    "1b01b01b01b01b01b02b01b03b01b01b01b01b01b01b02b01b01b01b01b0bH141212121212121212121212121" ++
    "2121A121212121212121212121212121212121212121212121212121212F11212121212121312121212121212" ++
    "1212121212121212121212121212121212121212121212121212121212121212121212121212121213bG1bG1b" ++
    "G1bG1bG1bG1bG1bG1bG1bG1bG1bG1bG1bG1bG1bG1bG1bG1bG1bG1bG1bG1bG1bG1bG1bG1bG1bG1bG1bG1bG1bG1" ++
    "bG1bG1bG1bG1bG1bGcWAhd01hd01hd01hd01hd01hd01hd01hd01hd01hd01hd01hd01hd01hd01hd01hd01hd01h" ++
    "d01hd01hd01hd01hd01hd01hd01hd01hd01hd01hd01hd01hd01hd01hd01hd01hd01hd01hd01hd01hd02hd06hd" ++
    "03c.01c.01c.01c.01c.01c.01c.01c.01c.01c.01c.01c.01c.01c.01c.01c.01c.01c.01c.01c.01c.01c.0" ++
    "1c.01c.01c.01c.01c.01c.01c.01c.01c.01c.01c.01c.01c.01c.01c.01c.01c.01c.01c.01c.01c.03c.01" ++
    "c.01c.0v1bf.G1bf.G1bf.G1bf.G1bf.G1bf.G1bf.G1bf.G1bf.G1bf.G1bf.G1bf.G1bf.G1bf.G1bf.G1bf.G1" ++
    "bf.G1bf.G1bf.G1bf.G1bf.G1bf.G1bf.G1bf.G1bf.G1bf.G1bf.G1bf.G1bf.G1bf.G1bf.G1bf.G1bf.G1bf.G" ++
    "1bf.G1bf.G1bf.G1bf.G1bf.G1bf.G1bf.G1bf.G1bf.G1bf.G1bf.G1bf.G1bf.G1bf.G1bf.G1bf.G1bf.G1bf." ++
    "G1bf.G1bf.G1bf.G1bf.G1bf.G1bf.G1bf.G1bf.G1bf.G1bf.G1bf.G1bf.G1bf.G1bf.G1bf.G1bf.G1bf.G1bf" ++
    ".G1bf.G1bf.G1bf.G1bf.G1bf.G1bf.G1bf.G1bf.G1bf.G1bf.G181818181818ceK1hGbcq44dx6HbcrOdI1212" ++
    "12121212121212121212121212121212121212121212121212121212121212121212121212121212121212121" ++
    "214121212121212121212121212121212121212121212121212121C1212121212121212121212121212121212" ++
    "12121212121212121212121212121212121212121212121212121212121212818181818181818981818181818" ++
    "B8181818181818189818181818181818981818181818C828282898181818181818189cA1cA1cM1cM1cM1cM1d4" ++
    "1d41e01e01dG1dG1dU1dU381818181818181898181818181818189818181818181818981829G9D818F81847E9" ++
    "jVSbEG1G1G1G1G1G1G1G1G1G1G1G1G1G1G1GK1zJQ1Q1Q1Q1Q1Q1Q1Q1Q1Q1Q1Q1Q1Q1Q1Q1Q1Q1Q1Q1Q1Q1Q1Q1Q" ++
    "1QbzHbG1bG1bG1bG1bG1bG1bG1bG1bG1bG1bG1bG1bG1bG1bG1bG1bG1bG1bG1bG1bG1bG1bG1bG1bG1bG1bG1bG1" ++
    "bG1bG1bG1bG1bG1bG1bG1bG1bG1bG1bG1bG1bG1bG1bG1bG1bG1bG1bG1bGbH17121217131B1212121212121212" ++
    "12121212121212121212121212121212121212121212121212121212121212121212121212121212121912151" ++
    ".kE1212121214121212121212121212121212121212121K121212121212121212121212121e81212121212121" ++
    "41212121212121212121212121212121212121212121212121212121212121B12131212121215151212bG2121" ++
    "2121212121212121BZ0112121212121212151213141612121R1uyG1baSb01b01b01b01b01b01b01b01b01b01b" ++
    "01b01b01b01b01b01b01b01b01b01b01b01b01b01b01b0bg6b81b81b81b81b81b81b81b81b81b81b81b81b81b" ++
    "81b81b81b81b81b81b81b81b81b81b81b81b81b81b81b81b81b81b81b81b81b81b81b81b81b81b8e9b81b81b8" ++
    "1b81b81b81b81b81b81b81b81b81b81b81b81b81b81b81b81b81b81b81b81b81b81b81b81b81b81b81b81b81b" ++
    "81b81b81b8eTb71b71b71b71b71b71b71b71b71b71b72b71b71b71b71b71b71b71b71b71b71b71b71b71b71b7" ++
    "2b71b71b71b71b71b71b72b71b7bxBc01c01c01c01c01c01c01c01c01c01c01c01c01c01c01c01c01c01c01c0" ++
    "1c01c01c01c01c01c01c01c01c01c01c01c01c01c01c01c01c01c01c01c01c01c01c01c01c01c01c01c01c01c" ++
    "01c0eUb01b01b01b01b01b01b01b01b01b01b01b01b01b01b01b01b01b01b01b01b01b0czRb01b01b01b01b01" ++
    "b01b01b01b01b01b01b01b01b01b01b01b01b01b01b01b01b01b01b01b01b01b01b01b01b01b01b0vm1b01b01" ++
    "b01b01b01b01b01b01b01b01b01b01b01b01b01b01b01b01b01b01b01b01b01b01b01b01b01b01b01b01b01b0" ++
    ".v1b21b21b21b21b21b21b21b21b21b21b21b21b21b21b21b21b21b21b21b21b21b21b21b21b21b21b21b21b2" ++
    "1b21b21b21b21b2"

/-- Orbits of three characters. -/
def tripleOrbits : String :=
  "cBb0ifV8b0iCd2x7b0Gb0ic6hV11311311b711n1b0U3b0c05b0bM6b0M1b0bG2V13b0F3b0hkTd9b0gcE2b0gcDAb0" ++
    "gc43b0gc29b0gbSbO1gb4gb6bco21oO1bQ"

/-- Orbits of four characters. -/
def quadrupleOrbits : String :=
  "W5cKb0ha5cJb0Pb3eAb0gc21"

/-- Reads orbits of a given size.  First members ascend and are packed as
differences, and so are the members of each orbit. -/
def unpackOrbits (size last : Nat) (orbits : List (List Nat)) : List Nat → List (List Nat)
  | [] => orbits
  | gap :: rest =>
      let first := last + gap
      let orbit := (rest.take (size - 1)).foldl (fun (orbit : List Nat) step =>
        orbit ++ [orbit.getLastD first + step]) [first]
      unpackOrbits size first (orbit :: orbits) (rest.drop (size - 1))
termination_by steps => steps.length
decreasing_by simp only [List.length_drop, List.length_cons]; omega

def orbitsOf (size : Nat) (data : String) : List (List Nat) :=
  unpackOrbits size 0 [] (CharSet.unpackNumbers data)

/-- Every character with others in its orbit, and those others, in ascending
order of the former. -/
def caseTable : Array (Nat × List Nat) :=
  let orbits := orbitsOf 2 pairOrbits ++ orbitsOf 3 tripleOrbits ++ orbitsOf 4 quadrupleOrbits
  let rows := orbits.flatMap fun orbit => orbit.map fun c => (c, orbit.filter (· != c))
  (rows.mergeSort fun left right => left.1 ≤ right.1).toArray

/-- The first row from `low` on whose character is not below `code`. -/
def firstRow (code : Nat) : Nat → Nat → Nat → Nat
  | 0, low, _ => low
  | fuel + 1, low, high =>
      if low < high then
        let middle := (low + high) / 2
        match caseTable[middle]? with
        | some (c, _) =>
            if c < code then firstRow code fuel (middle + 1) high else firstRow code fuel low middle
        | none => low
      else low

/-- The other members of the orbits of the characters from `low` to `high`. -/
def othersInRange (low high : Nat) : List Nat :=
  let first := firstRow low 32 0 caseTable.size
  let last := firstRow (high + 1) 32 first caseTable.size
  (caseTable.extract first last).toList.flatMap Prod.snd

/-- The characters of a set and of all orbits that it meets. -/
def foldCase (set : CharSet) : CharSet :=
  let others := set.ranges.flatMap fun (low, high) => othersInRange low high
  if others.isEmpty then set
  else CharSet.ofRanges (set.ranges ++ others.map fun c => (c, c))

end WorkflowAudit.Unicode
