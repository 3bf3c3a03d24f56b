import WorkflowAudit.Unicode.CharSet

/-!
# Scripts

The characters of each script, under its names in normal form.  A character that
several scripts share belongs to the common or the inherited script, and each of
the others has it among its extras.
-/

namespace WorkflowAudit.Unicode

def scriptData : List (List String × String) :=
  [
    (["adlm", "adlam"],
      "dWi0cB5951"),
    (["aghb", "caucasianalbanian"],
      "cbjGbJC0"),
    (["ahom"],
      "cfy0Q3E5M"),
    (["arab", "arabic"],
      "bq04252D222V29CP2dB2b1cHbFhHU216cA2SbYsHdIHlA3cF3bL80b1FdH42e6dX4Uc42bO3bxy132Q21203029" ++
        "23202070502020222120302020202021203326232320292G62242GbL1"),
    (["armi", "imperialaramaic"],
      "ccc0L28"),
    (["armn", "armenian"],
      "bjHb53bH32bZm44"),
    (["avst", "avestan"],
      "ccy0bL46"),
    (["bali", "balinese"],
      "gy0cC2bH"),
    (["bamu", "bamum"],
      "bjv0cNbqi9rO"),
    (["bass", "bassavah"],
      "cWwGT35"),
    (["batk", "batak"],
      "g.0bJ93"),
    (["beng", "bengali"],
      "cm0327313L2620433831339051243O"),
    (["bhks", "bhaiksuki"],
      "cha082bC2DBS"),
    (["bopo", "bopomofo"],
      "xA1lqQbAdHV"),
    (["brah", "brahmi"],
      "cea0cD5b3A0"),
    (["brai", "braille"],
      "ka0hV"),
    (["bugi", "buginese"],
      "gq0R31"),
    (["buhd", "buhid"],
      "fW0J"),
    (["cakm", "chakma"],
      "cei0bK2H"),
    (["cans", "canadianaboriginal"],
      "fa0tVrHc5canRF"),
    (["cari", "carian"],
      "cav0bG"),
    (["cham"],
      "bkq0bMAD3933"),
    (["cher", "cherokee"],
      "eZ0cL35bfXJcF"),
    (["chrs", "chorasmian"],
      "cdZGR"),
    (["copt", "coptic", "qaac"],
      "_2DkeHdJ66"),
    (["cpmn", "cyprominoan"],
      "clYGd2"),
    (["cprt", "cypriot"],
      "cca05302bB214030"),
    (["cyrl", "cyrillic"],
      "ba0e43f8fWHAf10cD0ed8V.c1cVvYF1byq1bTb20"),
    (["deva", "devanagari"],
      "ci0cG5E3PbhX1VYq19"),
    (["diak", "divesakuru"],
      "cgi063037212T213BA9"),
    (["dogr", "dogra"],
      "cga0bR"),
    (["dsrt", "deseret"],
      "cba0cF"),
    (["dupl", "duployan"],
      "dpa0dA6C488933"),
    (["egyp", "egyptianhieroglyphs"],
      "cma0bcLBdYQ"),
    (["elba", "elbasan"],
      "cbi0b7"),
    (["elym", "elymaic"],
      "cd_0M"),
    (["ethi", "ethiopic"],
      "eq0c8233620233b8233b0233620233E2bO233c23V4Pgp7MA626262626262626_j353535A626cpfI623212E"),
    (["gara", "garay"],
      "cdk0b54S91"),
    (["geor", "georgian"],
      "ef0b520603bA23cYHbA32ec1b52060"),
    (["glag", "glagolitic"],
      "la0cVdmZ162G362124"),
    (["gong", "gunjalagondi"],
      "chl05212b4212589"),
    (["gonm", "masaramgondi"],
      "chi06212bB40212899"),
    (["goth", "gothic"],
      "cazGQ"),
    (["gran", "grantha"],
      "cey0327313L2621243831323070663644"),
    (["grek", "greek"],
      "XG3223320502022202J2bUFFgj74bJ454cL0k1L353b535372020202U3bK2E2D352I3228j80bcrV0voRcEI0b" ++
        "ud0c5"),
    (["gujr", "gujarati"],
      "cu1228222L26212439222230G33B86"),
    (["gukh", "gurungkhema"],
      "cyi0bP"),
    (["guru", "gurmukhi"],
      "cq1225513L26212121302451324083208G"),
    (["hang", "hangul"],
      "ei0hVhrF1i2cTdIUc2UZx2Su4kZ3DM5bGjZ5U45353532"),
    (["hani", "han"],
      "lu0P2cODgLbG020Q8F3.5gnVc1upVwi1lD3d9Zi91D1beaFbjwVb1ebP7gT3fu1FhjGGtDcn3qTbp3eWA6ecV"),
    (["hano", "hanunoo"],
      "fz0K"),
    (["hatr", "hatran"],
      "cch0I2164"),
    (["hebr", "hebrew"],
      "bmHbM9Q55bZj9P2420212129"),
    (["hira", "hiragana"],
      "mc1cL72c_X2iUJ0U2qfE0"),
    (["hluw", "anatolianhieroglyphs"],
      "cra0s6"),
    (["hmng", "pahawhhmong"],
      "cWy0c5B9262K6I"),
    (["hmnp", "nyiakengpuachuehmong"],
      "dyi0bC4D3951"),
    (["hung", "oldhungarian"],
      "cde0bIEbI85"),
    (["ital", "olditalic"],
      "cay0b3A2"),
    (["java", "javanese"],
      "bkm0cD3951"),
    (["kali", "kayahli"],
      "bki0bD20"),
    (["kana", "katakana"],
      "mf1cP32hHFgHbE2cNbtaF92bCbmcJ3262120j02bJ0F3"),
    (["kawi"],
      "chy0G2b84S"),
    (["khar", "kharoshthi"],
      "ccq032167222S325988"),
    (["khmr", "khmer"],
      "fY0cT3979p7V"),
    (["khoj", "khojki"],
      "ceq0H2bE"),
    (["kits", "khitansmallscript"],
      "cX_40gySoLbA0"),
    (["knda", "kannada"],
      "de0C222M29243822238171233922"),
    (["krai", "kiratrai"],
      "cXk0bP"),
    (["kthi", "kaithi"],
      "cee0c2B0"),
    (["lana", "taitham"],
      "gr0bU2S3A797D"),
    (["laoo", "lao"],
      "du1120242N202M3420262933"),
    (["latn", "latin"],
      "c1P7PbG0G06M2U2o0b84gqSb57bG636C2c5c2hVlI0E0HCeE170S0Ib8cwOV.v3d54c2312027MDzHbA2823tYN" ++
        "6baRP7Pcb652b928bvW6U75"),
    (["lepc", "lepcha"],
      "ha0bN4E42"),
    (["limb", "limbu"],
      "gi0U2B5B504B"),
    (["lina", "lineara"],
      "cbq0jMALB7"),
    (["linb", "linearb"],
      "caa0B2P2I212E3Db3dQ"),
    (["lisu"],
      "bjgGbF.vH0"),
    (["lyci", "lycian"],
      "cau0S"),
    (["lydi", "lydian"],
      "ccj0P60"),
    (["mahj", "mahajani"],
      "cekGb6"),
    (["maka", "makasar"],
      "chx0O"),
    (["mand", "mandaic"],
      "cc0R30"),
    (["mani", "manichaean"],
      "ccw0b65B"),
    (["marc", "marchen"],
      "chdGV3L2D"),
    (["medf", "medefaidrin"],
      "cXs0cQ"),
    (["mend", "mendekikakui"],
      "dWa0g43F"),
    (["merc", "meroiticcursive"],
      "ccn0N5J3bD"),
    (["mero", "meroitichieroglyphs"],
      "ccm0V"),
    (["miao", "plrd"],
      "cXy0cA5bO8G"),
    (["mlym", "malayalam"],
      "di0C222bI22255F3P"),
    (["modi"],
      "cfq0c4C9"),
    (["mong", "mongolian"],
      "ga01302J7cO8bAb_nMC"),
    (["mroo", "mro"],
      "cWs0U2951"),
    (["mtei", "meeteimayek"],
      "bkx0MgAbD39"),
    (["mult", "multani"],
      "ceu0620232E2A"),
    (["mymr", "myanmar"],
      "ea0eVbgk1Ud2VXcHJ"),
    (["nagm", "nagmundari"],
      "dzgGb9"),
    (["nand", "nandinagari"],
      "cgn073bD3A"),
    (["narb", "oldnortharabian"],
      "ccu0V"),
    (["nbat", "nabataean"],
      "cce0U98"),
    (["newa"],
      "cfa0cR24"),
    (["nkoo", "nko"],
      "b.0bQ32"),
    (["nshu", "nushu"],
      "cX_10qmFmB"),
    (["ogam", "ogham"],
      "fu0S"),
    (["olck", "olchiki"],
      "hcGbF"),
    (["onao", "olonal"],
      "dzoGbA50"),
    (["orkh", "oldturkic"],
      "cda0c8"),
    (["orya", "oriya"],
      "cy1227313L2621243831328251243H"),
    (["osge", "osage"],
      "cbfGb35b3"),
    (["osma", "osmanya"],
      "cbe0T39"),
    (["ougr", "olduyghur"],
      "cdXGP"),
    (["palm", "palmyrene"],
      "ccd0V"),
    (["pauc", "paucinhau"],
      "cgw0bO"),
    (["perm", "oldpermic"],
      "caWGbA"),
    (["phag", "phagspa"],
      "bkc0bN"),
    (["phli", "inscriptionalpahlavi"],
      "ccX0I67"),
    (["phlp", "psalterpahlavi"],
      "ccY0H83D6"),
    (["phnx", "phoenician"],
      "cci0R40"),
    (["prti", "inscriptionalparthian"],
      "ccW0L37"),
    (["qaai", "inherited", "zinh"],
      "y0dFiM1o5AR0x13ekSUq222C26507041g7bVqD1g3b0dzQ3dC1btl6FHD.G0h30ecR0bo.5bD3Mr12I736V3ylW" ++
        "JhF"),
    (["rjng", "rejang"],
      "bkjGb3C0"),
    (["rohg", "hanifirohingya"],
      "cdi0b799"),
    (["runr", "runic"],
      "fv0cA4A"),
    (["samr", "samaritan"],
      "ca0bD3E"),
    (["sarb", "oldsoutharabian"],
      "cct0V"),
    (["saur", "saurashtra"],
      "bke0c59B"),
    (["sgnw", "signwriting"],
      "dwa0uBG42E"),
    (["shaw", "shavian"],
      "cbcGbF"),
    (["shrd", "sharada"],
      "cem0cV"),
    (["sidd", "siddham"],
      "cfm0bL3b5"),
    (["sind", "khudawadi"],
      "cevGbQ69"),
    (["sinh", "sinhala"],
      "dm122H4N282036405520277932ca_DJ"),
    (["sogd", "sogdian"],
      "cdzGb9"),
    (["sogo", "oldsogdian"],
      "cdy0b7"),
    (["sora", "sorasompeng"],
      "cegGO89"),
    (["soyo", "soyombo"],
      "cgsGcI"),
    (["sund", "sundanese"],
      "gY0bVi17"),
    (["sunu", "sunuwar"],
      "cg.0b1F9"),
    (["sylo", "sylotinagri"],
      "bka0bC"),
    (["syrc", "syriac"],
      "by0D2bR32iHA"),
    (["tagb", "tagbanwa"],
      "fX0C2221"),
    (["takr", "takri"],
      "cfu0bP79"),
    (["tale", "taile"],
      "gkGT34"),
    (["talu", "newtailue"],
      "gm0bB5P7A41"),
    (["taml", "tamil"],
      "cY2125422341202141424B5442233070FKce.6bHE0"),
    (["tang", "tangut"],
      "cX_00b0f_N9xVq18"),
    (["tavt", "taiviet"],
      "bku0c2P4"),
    (["telu", "telugu"],
      "da0C222M2F382223812230333988"),
    (["tfng", "tifinagh"],
      "ljGbN81F0"),
    (["tglg", "tagalog"],
      "fy0LA0"),
    (["thaa", "thaana"],
      "bY0bH"),
    (["thai"],
      "dq1bP6R"),
    (["tibt", "tibetan"],
      "dy0c72b35b62b32E2651"),
    (["tirh", "tirhuta"],
      "cfe0c799"),
    (["tnsa", "tangsa"],
      "cWtGcE29"),
    (["todr", "todhri"],
      "cbo0bJ"),
    (["toto"],
      "dyuGU"),
    (["tutg", "tulutigalari"],
      "ceY0920302b529203023292191"),
    (["ugar", "ugaritic"],
      "caY0T20"),
    (["vaii", "vai"],
      "bji0jB"),
    (["vith", "vithkuqi"],
      "cblGA2E26212A2E2621"),
    (["wara", "warangciti"],
      "cgf0cID0"),
    (["wcho", "wancho"],
      "dyw0bP60"),
    (["xpeo", "oldpersian"],
      "caZ0b35D"),
    (["xsux", "cuneiform"],
      "cia0YPd7dE24Cg3"),
    (["yezi", "yezidi"],
      "cdu0b92231"),
    (["yiii", "yi"],
      "bia0beC4bM"),
    (["zanb", "zanabazarsquare"],
      "cgq0c7"),
    (["zyyy", "common"],
      "0c0R5RbE2E24O0b00o2b6643JdL0A07020tU070F040b10eT0q50e21bgQ0mM3j30bpG2c81gC120bgE0E08325" ++
        "2230y6B3cM2A4A2EIb0c0b522352Q2GbA25uPNAMYVi1tJ3V2d8q1cTmJK202OG753cS140cR1eKFb1b5A0bH" ++
        "bVb0cGbG0cPf7go1bVwi1b1d72f69hL0f10mC0F1uoJ1gH9Nb22I23eK02VR5RAB0bE1c1626B4i325bC48cH" ++
        "CbKbCh5Qbon53dWThP7nJeTdJbThLBb63bT4G918T5bSgMJDJDcMAOe8cK2c6213031332B20262c02337262" ++
        "R232420462kJ3j33bHfdIc3cDbSw3bB5d3DE3E2E2b4BfDbPP21EbB5881F5eR.N5G4C4dM5cU7B50GB5bN99" ++
        "7b79T3B51bVkJDD3C496bN8E3A788eI2d5yba80VcV")]

/-- The characters of each script's extension that the script itself lacks. -/
def scriptExtras : List (String × String) :=
  [
    ("adlm",
      "bqV0b10gqF0dpI0"),
    ("aghb",
      "y40bD0bD0"),
    ("arab",
      "bqC0F040b10BAR0goV0dpI0btxT1bn1R"),
    ("armn",
      "y80"),
    ("avst",
      "fN0llP1"),
    ("beng",
      "vS0buL1I1eXB02031209090305032bc_Q0"),
    ("bopo",
      "w7022E0lj82592CB33070g40btkA1iR4"),
    ("bugi",
      "bkoF0"),
    ("buhd",
      "fzL1"),
    ("cakm",
      "cp69bsH9"),
    ("cari",
      "fN0hZ3030doK0"),
    ("cher",
      "y022071N1C1"),
    ("copt",
      "fN0s904120dD1kv20bvg9R"),
    ("cpmn",
      "cai01"),
    ("cprt",
      "cai025bC48"),
    ("cyrl",
      "vS0c422020203060lK1glI0ecB0"),
    ("deva",
      "vS0buL1I1eXBb621_N0bbW09"),
    ("dogr",
      "cl4Bbhw19"),
    ("dupl",
      "fN0sG120P1kyO0ddt43"),
    ("elba",
      "fN0sE0"),
    ("ethi",
      "yE0"),
    ("gara",
      "bqC0F040"),
    ("geor",
      "fN0bgI0cXI0dWV0doN0"),
    ("glag",
      "fN0sC020lV030i20cXI0dWV0dp90.bC0"),
    ("gong",
      "fN0cfD1"),
    ("gonm",
      "cl41"),
    ("goth",
      "fN0sD130b90"),
    ("gran",
      "ckH1I1u1DegT021V241_N0bYsB0deL120"),
    ("grek",
      "fN0s91302020B0bF030bF0gsC1uS0"),
    ("gujr",
      "ckH1I1bhwB9"),
    ("gukh",
      "cl50"),
    ("guru",
      "ckH1I1bhwB9"),
    ("hang",
      "ma12592CH070g40btkA1iR4"),
    ("hani",
      "fN0lzPF2230292CB3307053fS0eLFb1b5A0bHb7bPbGGBbK0cPOB4d1UYy27vzU1iR4bu_RHhwV1"),
    ("hano",
      "fzL1"),
    ("hebr",
      "y71"),
    ("hira",
      "ma12592CH52051cS340cR1btk91iR4B0bE1"),
    ("hung",
      "icQ030doK0G0"),
    ("java",
      "bkoF0"),
    ("kali",
      "bkjE0"),
    ("kana",
      "y50U0lgU2592CH52051cS340cR1btk91iR4B0bE1"),
    ("khoj",
      "cx69bhk19"),
    ("knda",
      "ckH1I1eXB02170O020bczS5"),
    ("kthi",
      "cl69jg20.pV9"),
    ("latn",
      "fN0q50B02220A020b7E2120D0328121b70605CiM1bgB1bZ90dhT0rN0g10dj70.h97r70"),
    ("limb",
      "cl50"),
    ("lina",
      "cai7bC"),
    ("linb",
      "cai025bC48"),
    ("lisu",
      "vS0H0ljT1"),
    ("lyci",
      "icQ0"),
    ("lydi",
      "fN0llQ0"),
    ("mahj",
      "fN0cfDBbhw19"),
    ("mand",
      "bs00"),
    ("mani",
      "bs00"),
    ("mero",
      "icT0"),
    ("mlym",
      "ckH1I1eXL0O0bczU2"),
    ("modi",
      "bkbG9"),
    ("mong",
      "ga2120cbA0d.I163"),
    ("mult",
      "ct69"),
    ("mymr",
      "bkjE0"),
    ("nand",
      "cl41Y19d_Q09080bczM5"),
    ("nkoo",
      "bqC0F040bZyV1"),
    ("onao",
      "cl41"),
    ("orkh",
      "icQ0doM0"),
    ("orya",
      "ckH1I1eXL0O0"),
    ("osge",
      "y103070cD0"),
    ("ougr",
      "bs00cbfI0"),
    ("perm",
      "fN0s9062B0lG0"),
    ("phag",
      "ga2120cbA0d.J0"),
    ("phlp",
      "bs00"),
    ("rohg",
      "bqC0F040b10eK0"),
    ("runr",
      "fxB2"),
    ("samr",
      "lrH0"),
    ("shaw",
      "fN0"),
    ("shrd",
      "ckH0eY60203130bcWG530"),
    ("sind",
      "cl41bhwB9"),
    ("sinh",
      "cl41eYD0"),
    ("sogd",
      "bs00"),
    ("sunu",
      "y0120A030T040"),
    ("sylo",
      "cl41e19"),
    ("syrc",
      "y313120M0328120wS0F130b10BAR0fY8020"),
    ("tagb",
      "fzL1"),
    ("takr",
      "cl41bhwB9"),
    ("tale",
      "y016140djK9"),
    ("taml",
      "ckH1I1eXL0bdaP0WqE020bO1"),
    ("tang",
      "l_GFpG0"),
    ("telu",
      "ckH1I1eXL0O0"),
    ("tfng",
      "y20203020"),
    ("tglg",
      "fzL1"),
    ("thaa",
      "bqC0F130c19bZY90B0"),
    ("thai",
      "vS0R0bC0bE0"),
    ("tibt",
      "ma83"),
    ("tirh",
      "ckH1I1eYD0bczU9"),
    ("todr",
      "y103030A020cB0"),
    ("toto",
      "vS0"),
    ("tutg",
      "dh69ea3020bczS5fS0"),
    ("yezi",
      "bqC0F040c19"),
    ("yiii",
      "ma116937h00btt64")]

/-- The characters of the script with a name in normal form. -/
def script? (name : String) : Option CharSet :=
  (scriptData.find? (·.1.contains name)).map fun entry => CharSet.unpack entry.2

/-- The scripts that hold what others share. -/
def isSharedScript (names : List String) : Bool :=
  names.contains "zyyy" || names.contains "zinh"

/-- All characters that some script has as extras. -/
def sharedExtras : CharSet :=
  CharSet.unionAll (scriptExtras.map fun entry => CharSet.unpack entry.2)

/-- The characters that the script with a name in normal form is used for. -/
def scriptExtension? (name : String) : Option CharSet :=
  (scriptData.find? (·.1.contains name)).map fun (names, data) =>
    let script := CharSet.unpack data
    if isSharedScript names then script.diff sharedExtras
    else match names.findSome? fun code => scriptExtras.lookup code with
      | some extras => script.union (CharSet.unpack extras)
      | none => script

end WorkflowAudit.Unicode
