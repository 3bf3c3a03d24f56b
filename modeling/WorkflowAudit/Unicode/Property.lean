import WorkflowAudit.Unicode.Age
import WorkflowAudit.Unicode.GeneralCategory
import WorkflowAudit.Unicode.Script
import WorkflowAudit.Unicode.Segmentation

/-!
# Character properties

Properties that characters have or have not are looked up by name, as are
categories and scripts.  Names are compared without case, blanks, hyphens and
underscores, and a leading `is` is ignored.
-/

namespace WorkflowAudit.Unicode

/-- The properties that are given by a list of their own. -/
def propertyData : List (String × String) :=
  [
    ("asciihexdigit",
      "bG985R5"),
    ("bidicontrol",
      "bqS0gpI1R4bO3"),
    ("bidimirrored",
      "b81J020T020U020bE0G0dtV3bWU1cmT1B1bN1F1fI0g134540414323202058602H63A120272V3360A13I61A4" ++
        "315N3F93L181bbUDcB033212263624DmKL352D908540542134502231B531DI23302030236172P1C153213" ++
        "15bA372b760204462504420i10q434121F139bC7nC937btrU561f31J020T020U0202121bvXO0bQ0bQ0bQ0" ++
        "bQ0"),
    ("changeswhencasefolded",
      "c1PcR0BM27b1020202020202020202020202020202020202020202020202020202030202020202020202120" ++
        "2020202020202020202020202020202020202020202120202021202122332122412120202120302122202" ++
        "1408121212020202020202020302020202020202020312022202020202020202020202020202020202020" ++
        "20202020202020202020208121302320202020hN0bB0204090702220212G28N0D24120202020202020202" ++
        "0202020213120213bIbH020202020202020202020202020202020A0202020202020202020202020202020" ++
        "2020202020202020202020212020202020203020202020202020202020202020202020202020202020202" ++
        "020202020202020202020202020202020202020202020203b5bH0cyPb52060zB5ce397bA32k1020202020" ++
        "2020202020202020202020202020202020202020202020202020202020202020202020202020202020202" ++
        "0202020202020202020202020202020202020202020202020202020613020202020202020202020202020" ++
        "2020202020202020202020202020202020202020202020202020202020202020202020A795B79795C0202" ++
        "02097HbF32356235C3D46235jA04170bEFK0zJPbzHbFbH022302020232030922020202020202020202020" ++
        "2020202020202020202020202020202020202020202020202020202020202020202020202020902050.kE" ++
        "020202020202020202020202020202020202020202020K020202020202020202020202020e80202020202" ++
        "02040202020202020202020202020202020202020202020202020202020202020B0202120202020502030" ++
        "20402020202020202020202424202020202020202320214060202020P0XRcFtW16D4baAPbg6b7e9b3eTA2" ++
        "E2621bxBbIeULczRVvm1V.v1b1"),
    ("changeswhenlowercased",
      "c1Pd6M26b202020202020202020202020202020202020202020202020202020203020202020202020302020" ++
        "2020202020202020202020202020202020202020212020412021223321224121202021203021222021408" ++
        "1212120202020202020203020202020202020203120222020202020202020202020202020202020202020" ++
        "2020202020202020208121302320202020j20204090702220212G28b40902020202020202020202020603" ++
        "0213bIbH020202020202020202020202020202020A0202020202020202020202020202020202020202020" ++
        "2020202020212020202020203020202020202020202020202020202020202020202020202020202020202" ++
        "020202020202020202020202020202020203b5cWAb52060wJcLceK07bA32k102020202020202020202020" ++
        "2020202020202020202020202020202020202020202020202020202020202020202020202020202020202" ++
        "02020202020202020202020202020202020202020A0202020202020202020202020202020202020202020" ++
        "202020202020202020202020202020202020202020202020202020A795B79795C020202097P7979794C4C" ++
        "3D4C4jA04170bEFK0zJPbzHbFbH0223020202320309220202020202020202020202020202020202020202" ++
        "020202020202020202020202020202020202020202020202020202020902050.kE0202020202020202020" ++
        "20202020202020202020202020K020202020202020202020202020e802020202020204020202020202020" ++
        "2020202020202020202020202020202020202020202020B02021202020205020302040202020202020202" ++
        "0202424202020202020202320214060202020P0vzCPbg6b7e9b3eTA2E2621bxBbIeULczRVvm1V.v1b1"),
    ("changeswhentitlecased",
      "d1PbR0bAN272020202020202020202020202020202020202020202020202020202030202020202020212020" ++
        "2020202020202020202020202020202020202020203020223020304060304230302020305030402030402" ++
        "0502121202020202020202021202020202020202022202040202020202020202020202020202020202020" ++
        "2040202020202020202090312050202020252120214123243021308030214560B1f70bC0204042J0Sb221" ++
        "42202020202020202020202024203030bLbF2020202020202020202020202020202020A02020202020202" ++
        "0202020202020202020202020202020202020203020202020202120202020202020202020202020202020" ++
        "2020202020202020202020202020202020202020202020202020202020202020bIb6dtH5ce3820hF040H0" ++
        "dJ02020202020202020202020202020202020202020202020202020202020202020202020202020202020" ++
        "2020202020202020202020202020202020202020202020202020202020202020266020202020202020202" ++
        "0202020202020202020202020202020202020202020202020202020202020202020202020202895B79795" ++
        "B7979D3797979421704221933197B221kN0b2F50WCPbW7bF20412020207030B0202020202020202020202" ++
        "02020202020202020202020202020202020202020202020202020202020202020202020202020902050Db" ++
        "52060.iK020202020202020202020202020202020202020202020K020202020202020202020202020e802" ++
        "0202020202040202020202020202020202020202020202020202020202020202020202020B02030202020" ++
        "2050502130202020202020202020C02020202020202050203040602020R0WT0TcFtW16D4bbAPbgEb7e9b3" ++
        "eSA2E2621by4bIdULczRVvm1V.v3b1"),
    ("changeswhenuppercased",
      "d1PbR0bAN272020202020202020202020202020202020202020202020202020202030202020202020212020" ++
        "2020202020202020202020202020202020202020203020223020304060304230302020305030402030402" ++
        "0612121202020202020202120202020202020202121204020202020202020202020202020202020202020" ++
        "40202020202020202090312050202020252120214123243021308030214560B1f70bC0204042J0Sb22142" ++
        "202020202020202020202024203030bLbF2020202020202020202020202020202020A0202020202020202" ++
        "0202020202020202020202020202020202020302020202020212020202020202020202020202020202020" ++
        "20202020202020202020202020202020202020202020202020202020202020bIb6cW9bA32xP5ce3820hF0" ++
        "40H0dJ0202020202020202020202020202020202020202020202020202020202020202020202020202020" ++
        "2020202020202020202020202020202020202020202020202020202020202020202026602020202020202" ++
        "02020202020202020202020202020202020202020202020202020202020202020202020202020202895B7" ++
        "9795B7979D3bK215020422150433197B22150kI0b2F50WCPbW7bF20412020207030B02020202020202020" ++
        "2020202020202020202020202020202020202020202020202020202020202020202020202020202020902" ++
        "050Db52060.iK020202020202020202020202020202020202020202020K02020202020202020202020202" ++
        "0e8020202020202040202020202020202020202020202020202020202020202020202020202020B020302" ++
        "020202050502130202020202020202020C02020202020202050203040602020R0WT0TcFtW16D4bbAPbgEb" ++
        "7e9b3eSA2E2621by4bIdULczRVvm1V.v3b1"),
    ("dash",
      "bD0bkT0bK0ds20ba60caA5bU0b80G0m70da5030b0150T0nV0K0dG0btmH1b60B0fA0dt10jV0"),
    ("defaultignorablecodepoint",
      "fD0v20wD0cW31bsK1cM4b_S4R4bIFehL0bteSFhG0f10cG8bpf83fgG7ylu6d_V"),
    ("deprecated",
      "k90bjA0ci4020cbA1cg65vQ1XxgN0"),
    ("diacritic",
      "cU020c80705031pOeU2765I150A1hU4gI0bOG2Q202120e7751e715142c4QcSAbRAb31dV7bA9HRbU0H043T0c" ++
        "B0H0dF0H0dF0H0bG2bT0H080dO0dF0H0dF0H0dE1H0dT0dG0D520dC0E4cC1S0202051c3221bV0dH021b915" ++
        "4Q620B1w22ZL1V0eLAA0kS2j50L730bHE3Ad90G0b78bN1bR0C1c31c15cJO507032bJbUcQBb6AnU022C2E2" ++
        "E2E1dhH2jU0pR5dA3d00ZlJ0D120T1cJ1Fb1d72dE1D0b60eO0SHbQ3b50d00D0b50eM2c23bK0d54A2e11tz" ++
        "H0y2FiF020bG0bE1c40xT0bf052b928tU250f61rS5b70R4mG2c7AbI3g10bA0c91dP1bV0cD0A2d91fJ1cH1" ++
        "H0P644cQ221E1d0040dS1hS1dV0dN1dK0iE1i3150eT0cK0J0cI0n60i3021cI0nA1O0fhDElgQ0co14bS6rL" ++
        "1r3GcH1p_V32621hy2bD3Mr12459736V3du3bTg36lO0bU3xV1x16dE222"),
    ("emoji",
      "b307069dG050hYE0D0gP0N0cR5G1lG1D0f70QA52g80h81B0A0bR324A03031305030213040419260206BC130" ++
        "2120J031J5202141603151C16130612021L165233050303520302020704070B1G03050205220C1bH2A0F0" ++
        "F0lL1oG2K1bK050bgR0D0sQ020dplB0gB0f11D1F039cCP21O0L038M1fFb13dF31223cI322i62bUC52N813" ++
        "7D0333051E13091A062D29230205070407cLbHc567325940214039h4B50iSbE292fOdHC496bN8E3A78"),
    ("emojicomponent",
      "b307069h.K0gM0bxjC0bY.NPpS4bnH3ybtDcV"),
    ("emojimodifier",
      "dY_R4"),
    ("emojimodifierbase",
      "jqT0gS0H3dtdO0bT23032dM13AMI4052228020P0gA150M051fF244cK0H2A0C0s00309770A932bP0bU12120I" ++
        "22Ch62bB8"),
    ("emojipresentation",
      "iyQ1gE34030qA1M1bJBbC0K0E091I1619060M0812050308051T0b40205220bU2P0F0WS1bK050drfF0gB0fV0" ++
        "39cCP20P0L03422M1fFb0D82c52LDbA54DG404c6202fQ3bUE32NJ0R1E0cNcKbHc570423253C188h4B50iS" ++
        "bE292fOdHC496bN8E3A78"),
    ("extendedpictographic",
      "f9050hYE0D0gP0N0cR5G1lG1D0d00c70QA52g80h81B0A0bR3252B2dHBdL3A2020704070B1G03050205220C4" ++
        "bE2A0F0F0lL1oG2K1bK050bgR0D0sQ020dpl7hVE2b00bT5D1F039JbOSEB0L03823AnH6jT9i9bHdVdLBcMb" ++
        "AD3bP7B5b97VcHDbE292nOi1_T"),
    ("extender",
      "fN0qP1XF0nQ0tN0eA0cQ0xH0e00ck40bP0t40mF0c50eYA0bC4d81cU2XyN0bpN0.30N0eA0dD0M1vdS0caH1bo" ++
        "C0S050bg80j60dL1pJ2bgG0ufA1beT120YkP1bfI0WL2"),
    ("graphemelink",
      "ckD0e00e00e00e00e00e00e00dE1H0dT0dG0e00gA0fL1bwQ1V0eU0uE0h40d61c71emC0.u70b60eO0eF0dD0j" ++
        "M0hN0xsI0bq70bA0F0bQ0dQ1eC0dL0fL0d30e12dI0e00hT0e00dN0dL0iE0i41f20cK0J0cI0n60i51cI0nA" ++
        "1qpD0"),
    ("hexdigit",
      "bG985R5b_vA985R5"),
    ("hyphen",
      "bD0e00bgT0etS0caA1dq60x40btl80fA0cO0"),
    ("idsbinaryoperator",
      "l_G139pI0"),
    ("idstrinaryoperator",
      "l_I1"),
    ("idsunaryoperator",
      "l_U1"),
    ("idcompatmathcontinue",
      "fI160hZN04A2ElK050N0dnf30Q0b00Q0b00Q0b00Q0b00Q0"),
    ("idcompatmathstart",
      "iq2050N0dnf30Q0b00Q0b00Q0b00Q0b00Q0"),
    ("ideographic",
      "ma61Q8F2.6gnVc1upVwi1lD3d9ZiB0Sf_N9bgLbA9jd8mBti5bjwVb1ebP7gT3fu1FhjGGtDcn3qTbp3eWA6ecV"),
    ("joincontrol",
      "iaC1"),
    ("logicalorderexception",
      "ds04dS4cxH230behR13021"),
    ("modifiercombiningmark",
      "bsK130e407041p212240b00"),
    ("noncharactercodepoint",
      "b_oGVqF1b__V1b__V1b__V1b__V1b__V1b__V1b__V1b__V1b__V1b__V1b__V1b__V1b__V1b__V1b__V1b__V1"),
    ("otheralphabetic",
      "W50UCs1D20212120c9AbHC26H0d66533150b40VFd7Ad61482223dB0bTB467JbN13E2162B1U2bR63131B0B1U" ++
        "2bR4513150V140C2bR72221M1N252bR63131A1B1V0bS44222B0b94bQ6222291C1U2bR6222291C1G0D3bR6" ++
        "2222B0B1U2cC52027J1bU036J0d403521H0f4IAA2b3dFB2033O352223643EB20B3btL1V1V1V1c3IfT1b30" ++
        "dNB58gV4bQ93JcB1C2bI4bHEbT2V831bQAbJImTb1bw2bJchNV.dL7b31l3090O4cP1bJF20bQ0b74TBbE3bH" ++
        "Bb60c4DD091bE2bJ0223160bD460hE7tzK0ccO4bu722163yL3c20k21cG0i42bMDbE1C2bE8A0bU2b5BJ1bQ" ++
        "2bHCF1cT8307030eU9O3bR63131B0B1cL820302321d8C22dBHhE636U1cJE20dBAd8Di2ChO521314020eF6" ++
        "3550T9bB423JAbFDmO726cKL2DdR54021222040c342123kT3A120bH642qoUGdr102bM83cU1tfD0iX262G3" ++
        "62124d50cfO0b_9P7P7P"),
    ("otherdefaultignorablecodepoint",
      "WF0dqG1bsK1cfG0ehV0btrS0cG8Waa802Td1dVhHdqF"),
    ("othergraphemeextend",
      "cnU0P0l70P0d70P0h90205121A1d80P0dO0G0cjM0V0ba10602061d60c81baP0eb21.j40dD0voU1er10dL0i9" ++
        "0F0A0d10A0302260h10D0hI0i70tQ0D0bq40ufF1ylK175ylvEcV"),
    ("otheridcontinue",
      "fN0wG0d_28bt90brI1ehE0bttA0"),
    ("otheridstart",
      "ge51ceI0M0dXD1"),
    ("otherlowercase",
      "fA0G0pM881V4d10bL0dm20dbGbUE0b3b4vI0E0HCgKFWHPbYJ1.qV1gJ0e2241X33A0xaN0322b928bwdMbT"),
    ("othermath",
      "cU0XI230R131hb10S2C0b13P1F1c2C504154J05039204470413122254364cC4332121202431515H31202620" ++
        "71j33f9120P0I0nU1D864613144F02035P1bQ020U3A1kN1b09mKLc03b11bvd402050gK020bvg2cK2c6213" ++
        "031332B20262c02337262R232420462kJ3O2O2U2O2U2O2U2O2U2O273bHfq132Q212030292320207050202" ++
        "0222120302020202021203326232320292G62242G"),
    ("otheruppercase",
      "il0FW7Pdtd1P7P7P"),
    ("patternsyntax",
      "b1EB6R320R3b3620212021505040O0b00hyPN9E3I29jIwFf1tLVbdBq1dVm225OG0btiE1i61"),
    ("patternwhitespace",
      "94J0d50hY91P1"),
    ("prependedconcatenationmark",
      "bq05gO0bI0m11cH0cb.R0G0"),
    ("quotationmark",
      "b2050e40G0hWT7Q1dq80oA3E2btr23fU050cR1"),
    ("radical",
      "lu0P2cODgL"),
    ("regionalindicator",
      "dYp6P"),
    ("sentenceterminal",
      "b10D0H0bkA0eK2fL0bC2hN0bU02041j61bx51yN051y60g71eU1bE060jR1l33f31B131U2fS1c21Z50O1A2dfG" ++
        "2jJ0E0N1nE0ZhT0iF1h4040lV1cN1d00eP1eK2eH1hQ0ur7031bS041fA0D0H0c20cxL1bhU4bD3fU1dM3e02" ++
        "e2170H1cP121dD0jB1dM1lM16EdA1hQ2q6020hS1cO1n51vL1cB1szA1e60c21C0rA1j90tq70hp90"),
    ("softdotted",
      "d91g50iQ0V0bL0L0k10d3020giA0bK0E040e50eU0n60gN1czJ0djZ61bJ1bJ1bJ1bJ1bJ1bJ1bJ1bJ1bJ1bJ1b" ++
        "J1bJ1ce70jI1R0"),
    ("terminalpunctuation",
      "b10B020C140zV090q20bQ0c90F022fL0bCA20hC1bN527b00i61bhL1fD055jO1yM7y60dT2c81eU240b8331jR" ++
        "1l33f31B122U2fS4bV1Z50O1A2dfG2jJ0E050B02141nD1ZhS1iE2h44lV1cN1d00eO2eK2e00H1hQ0ur7031" ++
        "bQ223fA0B020C140c2030bbR0bH0be70g80jN1eP5c55cQ3ZP4bD3fU6dH3e02e2170H1cP4dD0jB1dM2D1l7" ++
        "34EdA1hQ2q6020hS1cO151mV2bE0u61cB1bjC4rpQ1e60c22B0rA1j81tq70hp83"),
    ("unifiedideograph",
      "na0gnVc1upVwqF12021B0202132cboNbjwVb1ebP7gT3fu1FhjGGtDen3eWA6ecV"),
    ("variationselector",
      "gaB220bzpHFWaxHhF"),
    ("whitespace",
      "94J0d50R0fp00cm0AU160bG0dZ10")]

/-- The parts of other properties that follow from no category and are no
properties themselves. -/
def propertyParts : List (String × String) :=
  [
    ("caseignorableother",
      "b7070C0dT0wG0oO0eL0gr41B030bxpC0bV030fI070C0"),
    ("notxidstart",
      "XQ0cvP0e00ip81bs.25mN1dL020202020202020j01"),
    ("notxidcontinue",
      "XQ0lj11bs.25mN1dL020202020202020")]

def propertyAliases : List (String × String) :=
  [
    ("ahex", "asciihexdigit"), ("alpha", "alphabetic"), ("bidic", "bidicontrol"),
    ("bidim", "bidimirrored"), ("ci", "caseignorable"), ("cwcf", "changeswhencasefolded"),
    ("cwcm", "changeswhencasemapped"), ("cwl", "changeswhenlowercased"),
    ("cwt", "changeswhentitlecased"), ("cwu", "changeswhenuppercased"), ("dep", "deprecated"),
    ("di", "defaultignorablecodepoint"), ("dia", "diacritic"), ("ebase", "emojimodifierbase"),
    ("ecomp", "emojicomponent"), ("emod", "emojimodifier"), ("epres", "emojipresentation"),
    ("ext", "extender"), ("extpict", "extendedpictographic"), ("grbase", "graphemebase"),
    ("grext", "graphemeextend"), ("grlink", "graphemelink"), ("hex", "hexdigit"),
    ("idc", "idcontinue"), ("ideo", "ideographic"), ("ids", "idstart"),
    ("idsb", "idsbinaryoperator"), ("idst", "idstrinaryoperator"), ("idsu", "idsunaryoperator"),
    ("joinc", "joincontrol"), ("loe", "logicalorderexception"), ("lower", "lowercase"),
    ("mcm", "modifiercombiningmark"), ("nchar", "noncharactercodepoint"),
    ("oalpha", "otheralphabetic"), ("odi", "otherdefaultignorablecodepoint"),
    ("ogrext", "othergraphemeextend"), ("oidc", "otheridcontinue"), ("oids", "otheridstart"),
    ("olower", "otherlowercase"), ("omath", "othermath"), ("oupper", "otheruppercase"),
    ("patsyn", "patternsyntax"), ("patws", "patternwhitespace"),
    ("pcm", "prependedconcatenationmark"), ("qmark", "quotationmark"),
    ("ri", "regionalindicator"), ("sd", "softdotted"), ("space", "whitespace"),
    ("sterm", "sentenceterminal"), ("term", "terminalpunctuation"),
    ("uideo", "unifiedideograph"), ("upper", "uppercase"), ("vs", "variationselector"),
    ("wspace", "whitespace"), ("xidc", "xidcontinue"), ("xids", "xidstart")]

/-- The characters of a listed property. -/
def listed (name : String) : CharSet :=
  ((propertyData.lookup name).map CharSet.unpack).getD CharSet.empty

/-- The characters of a part. -/
def part (name : String) : CharSet :=
  ((propertyParts.lookup name).map CharSet.unpack).getD CharSet.empty

def letters : CharSet := categoriesSet ["lu", "ll", "lt", "lm", "lo"]

def alphabetic : CharSet :=
  CharSet.unionAll [letters, categorySet "nl", listed "otheralphabetic"]

def lowercase : CharSet := (categorySet "ll").union (listed "otherlowercase")

def uppercase : CharSet := (categorySet "lu").union (listed "otheruppercase")

def idStart : CharSet :=
  (CharSet.unionAll [letters, categorySet "nl", listed "otheridstart"]).diff
    ((listed "patternsyntax").union (listed "patternwhitespace"))

def idContinue : CharSet :=
  CharSet.unionAll [idStart, categoriesSet ["mn", "mc", "nd", "pc"], listed "otheridcontinue"]

def graphemeExtend : CharSet :=
  (categoriesSet ["me", "mn"]).union (listed "othergraphemeextend")

/-- Assigned characters that are neither controls, separators of lines, nor
extensions of others. -/
def graphemeBase : CharSet :=
  assigned.diff ((categoriesSet ["cc", "cf", "co", "zl", "zp"]).union graphemeExtend)

/-- Properties that follow from categories and listed parts. -/
def derived? (name : String) : Option CharSet :=
  match name with
  | "alphabetic" => some alphabetic
  | "lowercase" => some lowercase
  | "uppercase" => some uppercase
  | "cased" => some (CharSet.unionAll [lowercase, uppercase, categorySet "lt"])
  | "caseignorable" =>
      some ((categoriesSet ["mn", "me", "cf", "lm", "sk"]).union (part "caseignorableother"))
  | "changeswhencasemapped" =>
      some (CharSet.unionAll [listed "changeswhenlowercased", listed "changeswhentitlecased",
        listed "changeswhenuppercased"])
  | "graphemebase" => some graphemeBase
  | "graphemeextend" => some graphemeExtend
  | "idstart" => some idStart
  | "idcontinue" => some idContinue
  | "xidstart" => some (idStart.diff (part "notxidstart"))
  | "xidcontinue" => some (idContinue.diff (part "notxidcontinue"))
  | "math" => some ((categorySet "sm").union (listed "othermath"))
  | _ => none

/-- The characters that have a property, by its name in normal form. -/
def binaryProperty? (name : String) : Option CharSet :=
  let name := (propertyAliases.lookup name).getD name
  (derived? name).or ((propertyData.lookup name).map CharSet.unpack)

/-- The normal form of a name. -/
def normalName (name : String) : String :=
  let chars := name.toList
  let marked := (chars.take 2).map Char.toLower == ['i', 's']
  let kept := (if marked then chars.drop 2 else chars).filter fun c =>
    c != ' ' && c != '_' && c != '-' && c.toNat < 0x80
  let normal := kept.map Char.toLower
  if marked && normal == ['c'] then "isc" else String.ofList normal

/-- The characters that one name stands for: a property, a category or a
script.  Three short names of categories are those of other properties too. -/
def named? (name : String) : Option CharSet :=
  let name := normalName name
  let property := if ["cf", "sc", "lc"].contains name then none else binaryProperty? name
  property.or ((generalCategory? name).or (script? name))

/-- The characters for which a property has a value. -/
def valued? (property value : String) : Option CharSet :=
  let value := normalName value
  match normalName property with
  | "gc" | "generalcategory" => generalCategory? value
  | "sc" | "script" => script? value
  | "scx" | "scriptextensions" => scriptExtension? value
  | "age" => age? value
  | "gcb" | "graphemeclusterbreak" => breakClass? graphemeBreakData value
  | "wb" | "wordbreak" => breakClass? wordBreakData value
  | "sb" | "sentencebreak" => breakClass? sentenceBreakData value
  | _ => none

/-- Characters of words: letters, marks, decimal digits, connectors and joiners. -/
def wordChars : CharSet :=
  CharSet.unionAll [alphabetic, categoriesSet ["mn", "mc", "me", "nd", "pc"],
    listed "joincontrol"]

def decimalDigits : CharSet := categorySet "nd"

def whiteSpace : CharSet := listed "whitespace"

/-- Letters and numbers of any script. -/
def alphanumeric : CharSet := alphabetic.union (categoriesSet ["nd", "nl", "no"])

end WorkflowAudit.Unicode
