import WorkflowAudit.Unicode.CharSet

/-!
# Segmentation

The classes of characters that decide where a text divides into user-perceived
characters, words and sentences, each under its names in normal form.  Characters
without a part in a division have no class.
-/

namespace WorkflowAudit.Unicode

def graphemeBreakData : List (List String × String) :=
  [
    (["cr"],
      "D0"),
    (["cn", "control"],
      "09212Hd0b0E0blF0epI0b_T031P6bIFbxuG0hHBnbLFbcd13fgG7ylu6Vd1dVhHdqF"),
    (["ex", "extend"],
      "y0dFiK6i8bC20212120c9AbHKH0d66353123b40VQcSAbR8A0P3282224bC2bS8bBN2VbO020575046B1U0bR02" ++
        "03390A0B1R031bQ051513240V140C1bQ0542150L1N520bR021239082B1V0bS020D0A0b9040bO022622381" ++
        "C1U0bR03120422381C1T1bQ1203390A0B1U0c9050322090cI036D7d3038C6cA1S02020bOD24216A2b3A0d" ++
        "73252131Q152H3E03170G0w02ZJ3T2U1V1c1126903AA0bE220dM1b30dN251A072gS130bR0262020377930" ++
        "bHUbI3bH952b78D1b1335bP0214024bP731eP22C26507041g7bVqD0g4b0c_V2eE0d1VrB5dA1ZoL329b11c" ++
        "H1iH04050Q160eO1RHE0b77QA20bD2bH0333130b50c453131D090bG0bK022316120bB190hF03050tzH0x2" ++
        "FHFlF1sU0h30eM4bu722163b9250f61rU3c24jU1cG3c7AbI3dS0bNEbA031B2bI33180bU2b5427bV0D1bL8" ++
        "209330d02337030eU047M1bQ12020D0A0F644c40352030225220F1cM73220O0cI03520302121hC0337121" ++
        "S1cM73021dB02037d60203324i4821hM0B350eH33150b19b953390A532bFC21mN62520cJL362121dR5402" ++
        "12620c914020kS1C1bL462O0fh607Elg9B42co14bS6baP0c03cI0C1tfC1et2bD3MqV4459736V3eL2bZSbM" ++
        "5bH90F0N42EbkH62G362124d50f16lO0bU3pT3hV1x16dE6cvH4ydb1cVe1hF"),
    (["l"],
      "ei0cVbga1S"),
    (["lf"],
      "A0"),
    (["lv"],
      "bla00S0S0S0S0S0S0S0S0S0S0S0S0S0S0S0S0S0S0S0S0S0S0S0S0S0S0S0S0S0S0S0S0S0S0S0S0S0S0S0S0S0" ++
        "S0S0S0S0S0S0S0S0S0S0S0S0S0S0S0S0S0S0S0S0S0S0S0S0S0S0S0S0S0S0S0S0S0S0S0S0S0S0S0S0S0S0S" ++
        "0S0S0S0S0S0S0S0S0S0S0S0S0S0S0S0S0S0S0S0S0S0S0S0S0S0S0S0S0S0S0S0S0S0S0S0S0S0S0S0S0S0S0" ++
        "S0S0S0S0S0S0S0S0S0S0S0S0S0S0S0S0S0S0S0S0S0S0S0S0S0S0S0S0S0S0S0S0S0S0S0S0S0S0S0S0S0S0S" ++
        "0S0S0S0S0S0S0S0S0S0S0S0S0S0S0S0S0S0S0S0S0S0S0S0S0S0S0S0S0S0S0S0S0S0S0S0S0S0S0S0S0S0S0" ++
        "S0S0S0S0S0S0S0S0S0S0S0S0S0S0S0S0S0S0S0S0S0S0S0S0S0S0S0S0S0S0S0S0S0S0S0S0S0S0S0S0S0S0S" ++
        "0S0S0S0S0S0S0S0S0S0S0S0S0S0S0S0S0S0S0S0S0S0S0S0S0S0S0S0S0S0S0S0S0S0S0S0S0S0S0S0S0S0S0" ++
        "S0S0S0S0S0S0S0S0S0S0S0S0S0S0S0S0S0S0S0S0S0S0S0S0S0S0S0S0S0S0S0S0S0S0S0S0S0S0S0S0S0S0S" ++
        "0S0S0S0S0S0S0S0S0S0S0S0S0S0S0S0S0S0S0S0S0S0S0S0S0S0S0S0S0S0S0S0S0S0S0S0S0S0S0S0S0S0S0" ++
        "S0S0S0S0S0S0S0S0S0S0S0S0S0S0S0S0S0"),
    (["lvt"],
      "bla1Q2Q2Q2Q2Q2Q2Q2Q2Q2Q2Q2Q2Q2Q2Q2Q2Q2Q2Q2Q2Q2Q2Q2Q2Q2Q2Q2Q2Q2Q2Q2Q2Q2Q2Q2Q2Q2Q2Q2Q2Q2Q" ++
        "2Q2Q2Q2Q2Q2Q2Q2Q2Q2Q2Q2Q2Q2Q2Q2Q2Q2Q2Q2Q2Q2Q2Q2Q2Q2Q2Q2Q2Q2Q2Q2Q2Q2Q2Q2Q2Q2Q2Q2Q2Q2Q2" ++
        "Q2Q2Q2Q2Q2Q2Q2Q2Q2Q2Q2Q2Q2Q2Q2Q2Q2Q2Q2Q2Q2Q2Q2Q2Q2Q2Q2Q2Q2Q2Q2Q2Q2Q2Q2Q2Q2Q2Q2Q2Q2Q2Q" ++
        "2Q2Q2Q2Q2Q2Q2Q2Q2Q2Q2Q2Q2Q2Q2Q2Q2Q2Q2Q2Q2Q2Q2Q2Q2Q2Q2Q2Q2Q2Q2Q2Q2Q2Q2Q2Q2Q2Q2Q2Q2Q2Q2" ++
        "Q2Q2Q2Q2Q2Q2Q2Q2Q2Q2Q2Q2Q2Q2Q2Q2Q2Q2Q2Q2Q2Q2Q2Q2Q2Q2Q2Q2Q2Q2Q2Q2Q2Q2Q2Q2Q2Q2Q2Q2Q2Q2Q" ++
        "2Q2Q2Q2Q2Q2Q2Q2Q2Q2Q2Q2Q2Q2Q2Q2Q2Q2Q2Q2Q2Q2Q2Q2Q2Q2Q2Q2Q2Q2Q2Q2Q2Q2Q2Q2Q2Q2Q2Q2Q2Q2Q2" ++
        "Q2Q2Q2Q2Q2Q2Q2Q2Q2Q2Q2Q2Q2Q2Q2Q2Q2Q2Q2Q2Q2Q2Q2Q2Q2Q2Q2Q2Q2Q2Q2Q2Q2Q2Q2Q2Q2Q2Q2Q2Q2Q2Q" ++
        "2Q2Q2Q2Q2Q2Q2Q2Q2Q2Q2Q2Q2Q2Q2Q2Q2Q2Q2Q2Q2Q2Q2Q2Q2Q2Q2Q2Q2Q2Q2Q2Q2Q2Q2Q2Q2Q2Q2Q2Q2Q2Q2" ++
        "Q2Q2Q2Q2Q2Q2Q2Q2Q2Q2Q2Q2Q2Q2Q2Q2Q2Q2Q2Q2Q2Q2Q2Q2Q2Q2Q2Q2Q2Q2Q2Q2Q2Q2Q2Q2Q2Q2Q2Q2Q2Q2Q" ++
        "2Q2Q2Q2Q2Q2Q2Q2Q2Q2Q2Q2Q2Q2Q2Q2Q2Q"),
    (["pp", "prepend"],
      "bq05gO0bI0m11cH0bdC0caXF0G0hL1qE0blE020hP0cA5vT0nS0"),
    (["ri", "regionalindicator"],
      "dYp6P"),
    (["sm", "spacingmark"],
      "ci30bO0329321bJ1bS17131bN0bR2c30bR29021bM1bT07131dJ0214222bL2bU3bU1bR03021bF0F1bS16222b" ++
        "M1cD176K1c00e00eB1c00fI0A1Q1bD0bzI08721kR3325125h11bR020M5eI0bQ3c10V051c003220bM791fC" ++
        "0M0bczC130cP1bJFeF0bH0bH15131dG131P0eU03160hE1212120zaK020e00bE251dK0P1bS0bH2A0F0cU24" ++
        "1fD2b01bS0233131M1cM1G021d829140dC170212030hF17330dI29120dE021dF080i62A0hP4218020eF29" ++
        "350cL0U1bV0mO0F0dB08030gM45120kV1D0bH191qpB2dr5bM"),
    (["t"],
      "en8cNbroCbG"),
    (["v"],
      "el0c7brq9MbfmT043"),
    (["zwj"],
      "iaD0")]

def wordBreakData : List (List String × String) :=
  [
    (["le", "aletter"],
      "c1P7PbG0B0506M2U2oV7b1dH42133207022202J2cI2eA9f52b533202b820d90bDbAb412d220G181B230G12T" ++
        "UcOC0Pb0A1506L50A040OO8A6N25Ib9bRbL40J089GF57313L26204340H0E122F1B095513L26212121b032" ++
        "0K2H8222L26212440J0G1O0C7313L26212440V122G0I025422341202141424BN0bL7222M2F40R23031V05" ++
        "7222M292440b0121G1I8222b830H06292P56H4N282036jQ0c072b3S4iKb520603bA2kC233620233b8233b" ++
        "0233620233E2bO233c2b6FHcL354tB3G2P6cA4A8HEIFHFC22fGcO843b1206c5BUh2MhFbEI7bNTE1BbBRb3" ++
        "bA2Bb33A6bA32bA32521406fVc1iL353b535372020202U3bK2620422643355C6226dL0E0HCd6050392044" ++
        "702020232A336450Ib8zEbJbyNh47341Db520603bN80HMA626262626262626cH0oM0bM1g9bA2cTIVXs1be" ++
        "Cc4bD3iC4FB1LbEHU3cFPg5312027MF22232MUbJFbHbV54021CRBMQS8bET0bHb8O227eLA82D53535A6262" ++
        "bP7dIUkZ3DM5bGiy56D4bPd1b2lAJbV3bLb9BdL42e6b5P7Pc6U45353532b4B2P2I212E3Db3dQc6bKiCS4b" ++
        "GbGVET6b5BT3b35724bBeTJb35b35b79bJDA2E26212A2E26214bJDjMALB7P52b928c65302bB21403MBMAU" ++
        "c2I21BLBPc7bN71c10G3222SbBS4Sb472RSbLBLBIEHdFc8bObIEbIEb3b7RAMhRb971H2bSSB09LbBHbFKSM" ++
        "DbKbQ130EbCb1ORb3U0309b240DbFF3M020b4H2OK1c0620232E298bEb77313L26212440J0D4V920302b52" ++
        "0Q020bDbKJ3L2VbFL120fPbEbA3b5bFL0bSbAE0k8bBdLbVb073037212NG020cV73b6H020T0Bb780M0CbDK" ++
        "0Jc8g8b0b082b4I0bITdH6212b5M0Q5212VF0k8IG02C2b1dT0cGYPd7dEIg3csDd0GbbFI5QdYQ6s6gvQTbx" ++
        "3rO8UIcEITJbFH3b0K6InHbCgKbVe1cA60c3Cc1120taTdA6C4889fX7cK2c6213031332B20262c02337262" ++
        "R232420462kJ3O2O2U2O2U2O2U2O2U2O27bzLU75i6bTeJbCB6H0k2TJbBp5Rh5T30pG623212E2g4bSc380b" ++
        "fL32Q2120302923202070502020222120302020202021203326232320292G62242GtLP7P7P"),
    (["cr"],
      "D0"),
    (["dq", "doublequote"],
      "b20"),
    (["extend"],
      "y0dFiK6i8bC20212120c9AbHKH0d66353123b40VQcSAbR8A0P3282224bC2bS8bBN2b0bN22H26B1U2bP02631" ++
        "32A0B1R032bP024513240V140C2bP0272222L1N522bP026313282B1V0bS44223A0b94bO026222381C1U2b" ++
        "P026222381C1G0D3bO1262223A0B1U2c70552027J1bU036D7d3038C6cA1S0202051bIJ216A2b3A0d5JO35" ++
        "2223643EB20B3w02ZJ3T2U1V1c1VA0bE220dM1b30dNB5BgS4bQ92S30bHUbI4bGGb78D2VCbPDbHJeP22K50" ++
        "7032g7bVqD0g4b0c_V2eE0d1VrB5dA1ZoL329b11cH1iH04050O450cK1bJHRHE0b77QCbD3bGDb50c4DD091" ++
        "bE2bJ022316120bA461hD721tzH0x2FHFlF1sU0h30eM4bu722163b9250f61rU3c24jU1cG3c7AbI3dR2bME" ++
        "bA031B3bEA80bU2b5DH1bD0D2bHD9321cTB7030eUBM3bO1263132A0B13644c482030232420F1cJHO0cIJh" ++
        "C638S1cJGdBCd6Ei1EhM521332021eE63640T9b962390AAbFFmM727cJL2DdR540212620c342124kS3A120" ++
        "bH644O0fh607Elg9Hco14bS6baP02bM83cI0C1tfC1et2bD3MqV4459736V3eL2bZSbM5bH90F0N42EbkH62G" ++
        "362124d50f16lO0bU3pT3hV1x16dE6cvH4ydb1cVe1hF"),
    (["ex", "extendnumlet"],
      "cV0h.G0G1K0bxoV1P2hG0"),
    (["fo", "format"],
      "fD0blF0epI0ca01R4bI429bxuG0hQ2nbLFbcd13fgG7ylu70"),
    (["hl", "hebrewletter"],
      "boGQ53bZjB0292C2420212129"),
    (["ka", "katakana"],
      "mbH4d614cQ23hHFgHbE2cNbtaFbNbmcJ3262120j02bJ0F3"),
    (["lf"],
      "A0"),
    (["ml", "midletter"],
      "bQ0dT0wG0oO0eL0grJ0bxpC0c20g50"),
    (["mn", "midnum"],
      "bC0F0W30qB0e31cV0mC0gcC0bxqC040fO0F0"),
    (["mb", "midnumlet"],
      "bE0h_A1B0bxrE0fL070"),
    (["nl", "newline"],
      "B1dP0hZ31"),
    (["nu", "numeric"],
      "bG9bo75cR920dI0J9g79g71cH0e49dN9dN9dN9dN9dN9dN9dN9dN9dN9d19dN9c79iN9c79bW79b79jD9e1Af69" ++
        "79fN9cN9e7979bco79v79b79g79N9cN9mN9uyN9bm79ce7979yT9cE0G0b39bT9eH9iN9kN9dN9lN9d797JcD" ++
        "9n79d79uN9cN9hN9c79n79qoN9cj79cN9e79qN9xXN9cwLbHck19n79pN9hO9WM9euN9"),
    (["ri", "regionalindicator"],
      "dYp6P"),
    (["sq", "singlequote"],
      "b70"),
    (["wsegspace"],
      "b00ft00cm0622cL0dZ10"),
    (["zwj"],
      "iaD0")]

def sentenceBreakData : List (List String × String) :=
  [
    (["at", "aterm"],
      "bE0h_M0bxrE0fS0"),
    (["cr"],
      "D0"),
    (["cl", "close"],
      "b2052bI020U020bE0G0dtV3bWU1clS7Q1B1bN1F1tQ3U1bbH58DcG1b09mKLc03b11ba3DF139P0J7nC93722bt" ++
        "iV1gO1TF31H5fA1bI020U0202121bZyJ2"),
    (["ex", "extend"],
      "y0dFiK6i8bC20212120c9AbHKH0d66353123b40VQcSAbR8A0P3282224bC2bS8bBN2b0bN22H26B1U2bP02631" ++
        "32A0B1R032bP024513240V140C2bP0272222L1N522bP026313282B1V0bS44223A0b94bO026222381C1U2b" ++
        "P026222381C1G0D3bO1262223A0B1U2c70552027J1bU036D7d3038C6cA1S0202051bIJ216A2b3A0d5JO35" ++
        "2223643EB20B3w02ZJ3T2U1V1c1VA0bE220dM1b30dNB5BgS4bQ92S30bHUbI4bGGb78D2VCbPDbHJeP22K50" ++
        "7032g7bVqD1g3b0c_V2eE0d1VrB5dA1ZoL329b11cH1iH04050O450cK1bJHRHE0b77QCbD3bGDb50c4DD091" ++
        "bE2bJ022316120bA461hD721tzH0x2FHFlF1sU0h30eM4bu722163b9250f61rU3c24jU1cG3c7AbI3dR2bME" ++
        "bA031B3bEA80bU2b5DH1bD0D2bHD9321cTB7030eUBM3bO1263132A0B13644c482030232420F1cJHO0cIJh" ++
        "C638S1cJGdBCd6Ei1EhM521332021eE63640T9b962390AAbFFmM727cJL2DdR540212620c342124kS3A120" ++
        "bH644O0fh607Elg9Hco14bS6baP02bM83cI0C1tfC1et2bD3MqV4459736V3eL2bZSbM5bH90F0N42EbkH62G" ++
        "362124d50f16lO0bU3pT3hV1x16dE6yfwMcVe1hF"),
    (["fo", "format"],
      "fD0blF0hJ0ehV0b_T031R4bI429bxuG0hQ2nbLFbcd13fgG7ylu70"),
    (["lf"],
      "A0"),
    (["lo", "lower"],
      "d1PbG0B050b5N27202020202020202020202020202020202020202020202020202020212020202020202021" ++
        "2020202020202020202020202020202020202020202020302022302030415030423030202030212030402" ++
        "0313270303020202020202020212020202020202020213020402020202020202020202020202020202020" ++
        "202020202020202020202026303120502020202c42b381V4eD0204033J0Sb221422020202020202020202" ++
        "02024203031bKbF2020202020202020202020202020202020A02020202020202020202020202020202020" ++
        "2020202020202020203020202020202120202020202020202020202020202020202020202020202020202" ++
        "0202020202020202020202020202020202020202020bHb8cXK0xS5ce3820dMfVc20202020202020202020" ++
        "2020202020202020202020202020202020202020202020202020202020202020202020202020202020202" ++
        "0202020202020202020202020202020202020202020282020202020202020202020202020202020202020" ++
        "202020202020202020202020202020202020202020202020202020202895B79795B7979D3797979421704" ++
        "221933197B221dQ0E0HCdE04140S05050319350b2F50WCPbW7bF204120202050212740202020202020202" ++
        "0202020202020202020202020202020202020202020202020202020202020202020202020202020202180" ++
        "2050Db52060.iK020202020202020202020202020202020202020202020K0202020202020202020202020" ++
        "22e6020202020202220202020202020202020202020202020202020202020202020202020202029202030" ++
        "202020205020302220202020202020202020606020202020202020502030402020202020N22022zMbA2D7" ++
        "cFtW16D4bbAPbgEb7e9b3eSA2E2621o40322b928bi6bIdULczRVvm1VzmRPR62HRPR320262ARPRPRPRPRPR" ++
        "PRPRPRRTO25RO25RO25RO25RO2520bzL92J75i6bTcfLb1"),
    (["nu", "numeric"],
      "bG9bo75cR921dH0J9g79g71cH0e49dN9dN9dN9dN9dN9dN9dN9dN9dN9d19dN9c79iN9c79bW79b79jD9e1Af69" ++
        "79fN9cN9e7979bco79v79b79g79N9cN9mN9uyN9bm79ce7979yT9cE0G0b39bT9eH9iN9kN9dN9lN9d797JcD" ++
        "9n79d79uN9cN9hN9c79n79qoN9cj79cN9e79qN9xXN9cwLbHck19n79pN9hO9WM9euN9"),
    (["le", "oletter"],
      "nR053gH0b567BR020e60p50dNQ54bDbAb412d220G181B230H02TUcOC0Pb0A1506L50A040OO8A6N25Ib9bRbL" ++
        "40J089GF57313L26204340H0E122F1B095513L26212121b0320K2H8222L26212440J0G1O0C7313L262124" ++
        "40V122G0I025422341202141424BN0bL7222M2F40R23031V057222M292440b0121G1I8222b830H06292P5" ++
        "6H4N282036bRbF21D6bR120242N202921A03420M3b10c072b3S4dKbAL0H5534041825CD0c2bA3kB233620" ++
        "233b8233b0233620233E2bO233c2b6FdItB3G2P6cA4A8HEIFHFC22GbJb4050c4cO843b1206c5BUbIT34Cb" ++
        "B5PbNMAbKcJ0cUbEI7bNTE1BbBRb3bA2Bb3JbA32bA3252140bbR3c8233cZ8bN80HMA626262626262626cH" ++
        "0oM2Q884345cL722cP236bA2cTIVbHFq1gnVc1vuCc4bD3iC4FB1c30H0b1cFb88d9070d804622232MUbJFb" ++
        "HbV54021CRBMQS8bET0H429B42b8O227LM404bH2041343020P23A82D53535A626eIb2UkZ3DM5bGii5lD3d" ++
        "9c40292C242021212dBb2lAJbV3bLb9BdL42e6dAbN3U45353532b4B2P2I212E3Db3dQc6bKiCS4bGbGVET6" ++
        "b5BT3b35724dRcDd3b79bJcTbJDjMALB7Q1dU5302bB21403MBMAUc2I21BLBPc7bN71c10G3222SbBS4Sb47" ++
        "2RSbLBLBIEHdFc8fOb3b75b00iHb971H2bSSB09LbBHbFKSMDbKbQ130EbCb1ORb3U0309b240DbFF3M020b4" ++
        "H2OK1c0620232E298bEb77313L26212440J0D4V920302b520Q020bDbKJ3L2VbFL120fPbEbA3b5bFL0bSbA" ++
        "E0c8Qb66fQbBgK73037212NG020cV73b6H020T0Bb780M0CbDK0Jc8g8b0b082b4I0bITdH6212b5M0Q5212V" ++
        "F0k8IG02C2b1dT0cGYPd7dEIg3csDd0GbbFI5QdYQ6s6gvQTbx3rO8UIcEITJbFH3b0K6InHbCmKcA60c3Cc1" ++
        "120Tf_N9bgLbA9ix8326212j2G0U230F39mBci5dA6C4889itH0pMbCB6H0k2TJbBp5Rh5T30pG623212E2g4" ++
        "e70bfL32Q2120302923202070502020222120302020202021203326232320292G62242Gek5bjwVb1ebP7g" ++
        "T3fu1FhjGGtDcn3qTbp3eWA6ecV"),
    (["sc", "scontinue"],
      "bC1D1W30oV0fF1pB0eaA060caB1d_D0btqF121T1U13130B0f91D1c90"),
    (["st", "sterm"],
      "b10U0bkA0eK2fL0bC2hN0bU02041j61bx51yN051y60g71eU1bE060jR1l33f31B131U2fS1c21ZT1A2dfG2jJ0" ++
        "E0N1nE0ZhT0iF1h4040lV1cN1d00eP1eK2eH1hQ0ur7031c01fA0U0c20cxL1bhU4bD3fU1dM3e02e2170H1c" ++
        "P121dD0jB1dM1lM16EdA1hQ2q6020hS1cO1n51vL1cB1szA1e60c21C0rA1j90tq70hp90"),
    (["se", "sep"],
      "e50hZ31"),
    (["sp"],
      "9021K0e00fp00cm0Ab50bG0dZ10"),
    (["up", "upper"],
      "c1Pd6M26b202020202020202020202020202020202020202020202020202020203020202020202020302020" ++
        "2020202020202020202020202020202020202020212020412021223321224121202021203021222021408" ++
        "1212120202020202020203020202020202020203120222020202020202020202020202020202020202020" ++
        "2020202020202020208121302320202020j20204090702220212G28b40324020202020202020202020206" ++
        "030213bIbH020202020202020202020202020202020A02020202020202020202020202020202020202020" ++
        "2020202020202120202020202030202020202020202020202020202020202020202020202020202020202" ++
        "02020202020202020202020202020202020203b5cWAb52060wJcLceK0lN02020202020202020202020202" ++
        "0202020202020202020202020202020202020202020202020202020202020202020202020202020202020" ++
        "20202020202020202020202020202020202020A0202020202020202020202020202020202020202020202" ++
        "020202020202020202020202020202020202020202020202020A795B79795C020202097P7979794C4C3D4" ++
        "C4i6050423230447020202333B160RFK0zJPbzHbFbH022302020232030922020202020202020202020202" ++
        "0202020202020202020202020202020202020202020202020202020202020202020202020902050.kE020" ++
        "202020202020202020202020202020202020202020K020202020202020202020202020e80202020202020" ++
        "40202020202020202020202020202020202020202020202020202020202020B0202120202020502030204" ++
        "02020202020202020202424202020202020202320214060202020P0vzCPbg6b7e9b3eTA2E2621bxBbIeUL" ++
        "czRVvm1Vzn1PRPRPR02130313327RPR1233726S123242046SPRPRPRPRPRPVOb2Ob2Ob2Ob2Ob20ejMb1caF" ++
        "P7P7P")]

/-- The characters of the class with a name in normal form. -/
def breakClass? (classes : List (List String × String)) (name : String) : Option CharSet :=
  (classes.find? (·.1.contains name)).map fun entry => CharSet.unpack entry.2

end WorkflowAudit.Unicode
