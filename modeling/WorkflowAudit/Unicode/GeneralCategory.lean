import WorkflowAudit.Unicode.CharSet

/-!
# General categories

Every character has one of thirty general categories, named by two letters.
One letter names all categories that begin with it, and `lc` the three kinds of
letters with case.  Surrogates are no characters and have no entry; the
unassigned code points are those that no other category has.
-/

namespace WorkflowAudit.Unicode

/-- The ranges of each category in packed form. -/
def categoryData : List (String × String) :=
  [
    ("lu",
      "c1Pd6M26b202020202020202020202020202020202020202020202020202020203020202020202020302020" ++
        "2020202020202020202020202020202020202020212020412021223321224121202021203021222021408" ++
        "0303030202020202020203020202020202020203030222020202020202020202020202020202020202020" ++
        "2020202020202020208121302320202020j20204090702220212G28b40324020202020202020202020206" ++
        "030213bIbH020202020202020202020202020202020A02020202020202020202020202020202020202020" ++
        "2020202020202120202020202030202020202020202020202020202020202020202020202020202020202" ++
        "02020202020202020202020202020202020203b5cWAb52060wJcLceK07bA32k1020202020202020202020" ++
        "2020202020202020202020202020202020202020202020202020202020202020202020202020202020202" ++
        "0202020202020202020202020202020202020202020A02020202020202020202020202020202020202020" ++
        "20202020202020202020202020202020202020202020202020202020A795B79795C020202097c93D3D3D4" ++
        "C3i7050423230447020202333B160bU0ctTbFbH0223020202320309220202020202020202020202020202" ++
        "020202020202020202020202020202020202020202020202020202020202020202020902050.kE0202020" ++
        "20202020202020202020202020202020202020K020202020202020202020202020e802020202020204020" ++
        "2020202020202020202020202020202020202020202020202020202020B02021202020205020302040202" ++
        "0202020202020202424202020202020202320214060202020P0vzCPbg6b7e9b3eTA2E2621bxBbIeULczRV" ++
        "vm1Vzn1PRPRPR02130313327RPR1233726S123242046SPRPRPRPRPRPVOb2Ob2Ob2Ob2Ob20ejMb1"),
    ("ll",
      "d1PbR0bAN272020202020202020202020202020202020202020202020202020202120202020202020212020" ++
        "2020202020202020202020202020202020202020203020223020304150304230302020302120304020313" ++
        "2703030202020202020202120202020202020202130204020202020202020202020202020202020202020" ++
        "20202020202020202026303120502020202c42Qg20204042J0Sb221422020202020202020202020242030" ++
        "31bKbF2020202020202020202020202020202020A02020202020202020202020202020202020202020202" ++
        "0202020203020202020202120202020202020202020202020202020202020202020202020202020202020" ++
        "2020202020202020202020202020202020bHb8cW8bA32xP5ce3820dMbBc0C2b1d70202020202020202020" ++
        "2020202020202020202020202020202020202020202020202020202020202020202020202020202020202" ++
        "0202020202020202020202020202020202020202020282020202020202020202020202020202020202020" ++
        "202020202020202020202020202020202020202020202020202020202895B79795B7979D3797979421704" ++
        "221933197B221iJ04140S05050319350bM0cvCbF204120202050212560202020202020202020202020202" ++
        "02020202020202020202020202020202020202020202020202020202020202020202021802050Db52060." ++
        "iK020202020202020202020202020202020202020202020K020202020202020202020202020e802020202" ++
        "0202220202020202020202020202020202020202020202020202020202020202020272020302020202050" ++
        "20302220202020202020202020606020202020202020502030402020202020R040zMbA688cFtW16D4bbAP" ++
        "bgEb7e9b3eSA2E2621by4bIdULczRVvm1VzmRPR62HRPR320262ARPRPRPRPRPRPRPRPRRTO25RO25RO25RO2" ++
        "5RO2520bzL92J75cpOb1"),
    ("lt",
      "o503030b70hmM79797D0G0bG0"),
    ("lm",
      "vGH5BF48020e6060oV0h70f51iE150b00A040f10f80bgL0e00rM0bwR0dC0t40oH5fFbUE0b3b4vI0E0HCc_01" ++
        "hI0g00oM0bC460d21cU2XyN0bh35iF0dJ0T1dQ8cH0O0dA241oM0N0eA0dD0M1d83A0va70bE1b_152b928bm" ++
        "K0b10xoH3pT2b91r7Cc1120qaD32621mbIbTgA6ZE0bd00"),
    ("lo",
      "fA0G0i1053gH0zSQ53bEV29b412d220P1B230H02TUcOC0Pb0MLbBO8A6N25Ib8bSbL40J089HE57313L262043" ++
        "40H0E122F1B095513L26212121b0320K2H8222L26212440J0G1O0C7313L26212440V122G0I02542234120" ++
        "2141424BN0bL7222M2F40R23031V057222M292440b0121G1I8222b830H06292P56H4N282036bRbF21D5bS" ++
        "120242N202921A034O3b10c072b3S4dKbAL0H5534041825CD0dIk8233620233b8233b0233620233E2bO23" ++
        "3c2b6FdItB3G2P6cA778HEIFHFC22GbJb90c4b22bK843b1206c5BUbIT34CbB5PbNMAbKfHbEI7bNTE1BbBR" ++
        "b3bA2BTdI3252140bbR3c_ObNPMA626262626262626r80bM05cL902cP506bA2cTIVbHFq1gnVc1uqK2bdMc" ++
        "4b79iB5FB1c30bIc5fA0d804622232MUbJFbHbV54021CRBMQS8bEbE438B42b8O227LF25404bH204134302" ++
        "0P14A80F53535A626eIb2UkZ3DM5bGii5lD3d9c40292C242021212dBb2lAJbV3bLb9BdL42e6dA92bC3U45" ++
        "353532b4B2P2I212E3Db3dQm6S4bGbGVEJ277b5BT3b357e1cDd3b79bJcTbJDjMALB7eP5302bB21403MBMA" ++
        "Uc2I21BLBPc7bN71c10G3222SbBS4Sb472RSbLBLBIEHdFc8fOb3b7320jHb971H2bSSB09LbBHbFKSMDbKbQ" ++
        "130EbCb1ORb3U0309b240DbFF3M020b4H2OK1c0620232E298bEb77313L26212440J0D4V920302b520Q020" ++
        "bDbKJ3L2VbFL120fPbEbA3b5bFL0bSbAE0c8Qb66fQbBgK73037212NG020cV73b6H020T0Bb780M0CbDK0Jc" ++
        "8g8b0b082b4I0bITdH6212b5M0Q5212VF0k8IG02C2b1dT0cGYPh7g3csDd0GbbFI5QdYQ6s6gvQTbx3rO8UI" ++
        "cEITJbFbKK6InKb7mMcA60fGf_N9bgLbA9ixOj2G0U230F39mBci5dA6C4889itH0pMbCb20k2TJbBp5Qh6T3" ++
        "0pG623212E2g4bjS32Q2120302923202070502020222120302020202021203326232320292G62242Gek5b" ++
        "jwVb1ebP7gT3fu1FhjGGtDcn3qTbp3eWA6ecV"),
    ("mn",
      "y0dFiK4iAbC20212120c9AbHKH0d66353123b40VQcSAbR8A0P3282224bC2bS8bBN2VbO020575046B1U0bR05" ++
        "390L1R031bQ051513240V140C1bQ0542150L1N520bR030239081C1V0bU0D0bJ040bO022622381C1U0bR03" ++
        "07061L1T1bQ15390L1U0c908220cR036D7d3038C6cA1S02020bOD24216A2b3A0d73252131Q152H3E03170" ++
        "G0w02ZJ2U1V1V1c1126903AA0bE220dM1b30dN251A072gS130bR0262020377930bHD2FbI3bH0242060b98" ++
        "D1b133122bP0214022bR731eP22C26507041g7bVwHC504Bc_V2eE0d1VrB3dC1ZoL059b11cH1iH04050Q16" ++
        "0eO1RHE0b77QAbF2bH03331b80c453131D090bG0bK022316120bB190hF03050tzH0x2FHF.E0h30eM4bu72" ++
        "2163b9250f61rU3c24jU1cG3c7AbI3dS0bNEbA031B2bI33180bU2b5427bV0D1bL8B330d0230217030eU04" ++
        "7M1bQ140b6644c75E02020F1cM73220O0cL5205121hF37121S1cM73021dB0203520d60203324i4821i112" ++
        "050eH33150b19b953390A532bFC21mN62520cJL362121dR540212620c914020kS1C1bL46020O0fh607Elg" ++
        "9B42co14bS6baP0c03cI0tfP1et2bD3Mr12I736V3eL2bZSbM5bH90F0N42EbkH62G362124d50f16lO0bU3p" ++
        "T3hV1x16dE6yfZMhF"),
    ("mc",
      "ci30bO0329321bJ1bR27131B0bC0bR2c30bR29021bM1bR0207131B0d71214222B0bA2bU3bU1bR0243121A1T" ++
        "0F1bR26222B0bB1cC277J1kB1c00fC1507031Q1B236M13530B2btP0V0e208721kR3325125h11bR020A021" ++
        "95eI0bH0602421bU0V05130bT0322041bH791fC0M0ezN1Z_K130cP1bJFeF1bG0bH15132dF131P0bE020dE" ++
        "03160hE1212120zaK020e00bE251dK0P1bS0bH2A1E0cU24120fB2b01bR1233132A0B1cL28030232120d62" ++
        "9140dB2702330hE27330dI29120dE02170d802150i62A0hO521503020eF29350cL0U1bV0mO0F0dB08030g" ++
        "M45120kV1D0bH19120qp92dr5bMd91ylK175"),
    ("me",
      "be81frL0bqV322bbmC2"),
    ("nd",
      "bG9br79e79g79mT9dN9dN9dN9dN9dN9dN9dN9dN9dN9d19dN9c79iN9c79bW79b79jD9e19f7979fN9cN9e7979" ++
        "bco79v79b79g79N9cN9mN9uyN9bm79ce7979yT9e19bT9eH9iN9kN9dN9lN9d797JcD9n79d79uN9cN9hN9c7" ++
        "9n79qoN9cj79cN9e79qN9xXN9cwLbHck19n79pN9hO9WM9euN9"),
    ("nl",
      "fxE2ctGb233dtV0Q8F2ZvC9wsHbKoD090e74ibBdE"),
    ("no",
      "fI16032cjM5lP5dP2e66gQ6I8nI9bbMJbdK9p10buM04579g7FbA0wNbRcFLtNTblA0beL3eB9V72Eb19b8EZlH" ++
        "5wgIbCc23I1kMQb53bjL7Q6b88cC4N5f113F3bDc18bL1V2cC4d97P7bA6kB5l1UeV9bB3dH6e7JlSJbk61nF" ++
        "8X8IWKKsY76yVMzbAJDJdDOfkF8Z2bQ2223cDbC2E.3C"),
    ("pc",
      "cV0h_01K0bxoV1P2hG0"),
    ("pd",
      "bD0bkT0bK0ds20ba60caA5dq2030b0150T0nV0K0dG0btmH1b60B0fA0dt10jV0"),
    ("ps",
      "b80bJ0b00dvV020bWV0clV040b70bO0G0tR020V0bbV0202020202020cH0b1020202020mL020202020202020" ++
        "202020c1020b20bb60202020Q0J0202020nD0202020204020202030btj20gO0U02020202020202040I020" ++
        "20fB0bJ0b004030"),
    ("pe",
      "b90bK0b00dvU020bWV0cnA0bO0G0tR020V0bbV0202020202020cH0b1020202020mL02020202020202020202" ++
        "0c1020b20bb60202020bD0202020nD0202020204020202031btiV0gQ0U02020202020202040I02020fB0b" ++
        "K0b003030"),
    ("pi",
      "fB0hXD03130Q0do90205030G040"),
    ("pf",
      "fR0hWU040T0do90205030G040"),
    ("po",
      "b1222302021B141S0c5060F180vV090oJ5bA0bN03030bD1L121E022cB3d70bCDhA2bNEb00i61B0eD0dP0dQ0" ++
        "m70D0lG0cR0B1f9E20dH0cB451dG5fC0t58y60dT2c81eU222b6523jQ1gP1e1625f11B6T2dT3bS4bV1c17C" ++
        "0W31979833324A2029deR321dH0eG1523038212031B42933202C32nD2bQ0fU0Za31iE2d40B0dK5lT3cN1b" ++
        "9220bI1bG0d2CH1dT3dV1H1hQ0ur5630N0L1334223827021eM222302021B141S0b5031mR2uT0bH0mV0x80" ++
        "g80b00iH8b70dH6c36cQ3ZP4bD3fU6dE123dV3bH1cG350E022cP5dC0jB121dJ4B120d90hRMdA2TCcD0e32" ++
        "hT0i92eS0cT7cK224cU9gO0d04bB1u61cBCfG0bdH4cXT1otS1e60c2490r92j83k80tfT0hp84cXK0WV1"),
    ("sm",
      "bB0H2bU020bE050b60b00xV0qG2grS0E0b82E2eC0b8470c546150303080b013020b0iBb11cR0VOb95oM0A0b" ++
        "N7dG0kH43UBFi1e2NbU5V3i1bHK35bt.T0zP022f50H2bU020e4073dn21bsjI0Q0b00Q0b00Q0b00Q0b00Q0" ++
        "fzD1"),
    ("sc",
      "b40dU3bhA0dS0pJ1pJ180hM0i80s60cmS0cg5b0bbXO0vo40dD0eR0gS141h_N3bqyV0cnH0"),
    ("sk",
      "cU020c80705040qA3DD66202GdM0F1bi30fzL022C2E2E2E1eeT1Zt4MA1d81.H0F1uc7GXS020f30bZaO4"),
    ("so",
      "f60305020.I0iB1e01gF0B0K1hO0q40lM0e3520e50gG0bA0m82G02235L02020e67252163g61xH9wK0wJ0eUb" ++
        "1l29A8bm412321B0217520202050C1F02120bR1A4332121262U31202UiD75J363cG2TQb77c7NAcIcDNfM2" ++
        "82bL9dE2hNbDbBc1hVq1bFM17b63V2d8h65l61bFP2cODgLRF50E1D0M171kH159b1b5A0HUCT90GVBb6GjVg" ++
        "o1bVvuHbMX23B120rU2uw7Fe00bE2p504051E1jQ8bQG322C40bGbCbtR1sG0ddN0ceM75GsWB360ukN0dX4h" ++
        "FHnJeTdJbThLBb63bR62N18T5bSMc140fRcMbfApVbO3bJ72D21bw90cWT0e20wIbB5d3DE3E2E2b4Of0bPSE" ++
        "bB5881F5eRhQ6wN5G4C4dM5cU7B50GB5bN997b79T3B51bVkJDD3C496bN8E3A788eI2cR"),
    ("zs",
      "b00e00fp00cm0Ab50bG0dZ10"),
    ("zl",
      "ib80"),
    ("zp",
      "ib90"),
    ("cc",
      "0Vd0b0"),
    ("cf",
      "fD0bkJ5N0g10bI0m11cH0dzC0b_T4R4bI429bxuG0hQ2eg20G0iX3Fbcd13fgG7ylu70VcV"),
    ("co",
      "bya0ghVYby1b__T3b__T")]

/-- Long names in normal form. -/
def categoryAliases : List (String × String) :=
  [
    ("casedletter", "lc"), ("closepunctuation", "pe"), ("cntrl", "cc"), ("combiningmark", "m"),
    ("connectorpunctuation", "pc"), ("control", "cc"), ("currencysymbol", "sc"),
    ("dashpunctuation", "pd"), ("decimalnumber", "nd"), ("digit", "nd"),
    ("enclosingmark", "me"), ("finalpunctuation", "pf"), ("format", "cf"),
    ("initialpunctuation", "pi"), ("letter", "l"), ("letternumber", "nl"),
    ("lineseparator", "zl"), ("lowercaseletter", "ll"), ("mark", "m"), ("mathsymbol", "sm"),
    ("modifierletter", "lm"), ("modifiersymbol", "sk"), ("nonspacingmark", "mn"),
    ("number", "n"), ("openpunctuation", "ps"), ("other", "c"), ("otherletter", "lo"),
    ("othernumber", "no"), ("otherpunctuation", "po"), ("othersymbol", "so"),
    ("paragraphseparator", "zp"), ("privateuse", "co"), ("punct", "p"), ("punctuation", "p"),
    ("separator", "z"), ("spaceseparator", "zs"), ("spacingmark", "mc"), ("symbol", "s"),
    ("titlecaseletter", "lt"), ("unassigned", "cn"), ("uppercaseletter", "lu")]

/-- Names that stand for several categories. -/
def categoryGroups : List (String × List String) :=
  [("lc", ["lu", "ll", "lt"]), ("l", ["lu", "ll", "lt", "lm", "lo"]),
    ("m", ["mn", "mc", "me"]), ("n", ["nd", "nl", "no"]),
    ("p", ["pc", "pd", "ps", "pe", "pi", "pf", "po"]), ("s", ["sm", "sc", "sk", "so"]),
    ("z", ["zs", "zl", "zp"])]

/-- The characters of one category. -/
def categorySet (short : String) : CharSet :=
  match categoryData.lookup short with
  | some data => CharSet.unpack data
  | none => CharSet.empty

def categoriesSet (shorts : List String) : CharSet :=
  CharSet.unionAll (shorts.map categorySet)

/-- The code points that have a category other than unassigned. -/
def assigned : CharSet := categoriesSet (categoryData.map Prod.fst)

/-- The codes of surrogates, which join the ranges on both sides of them. -/
def surrogates : CharSet := CharSet.ofRange 0xD800 0xDFFF

/-- The characters that a category's name in normal form stands for. -/
def generalCategory? (name : String) : Option CharSet :=
  let short := (categoryAliases.lookup name).getD name
  if short = "any" then some CharSet.all
  else if short = "ascii" then some (CharSet.ofRange 0 0x7F)
  else if short = "assigned" then some assigned
  else if short = "cn" then some assigned.complement
  else if short = "c" then
    some (CharSet.unionAll [categoriesSet ["cc", "cf", "co"], assigned.complement, surrogates])
  else match categoryGroups.lookup short with
    | some members => some (categoriesSet members)
    | none => if (categoryData.lookup short).isSome then some (categorySet short) else none

end WorkflowAudit.Unicode
