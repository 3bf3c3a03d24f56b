import WorkflowAudit.Unicode.CharSet

/-!
# Ages

A character's age is the version of Unicode that added it.  The versions stand
in their order, each with the characters that it added, under its names in
normal form.
-/

namespace WorkflowAudit.Unicode

def ageData : List (List String × String) :=
  [
    (["1.1", "v11"],
      "0pL5TbPcO8bE29Nc5R1J1504066202J2bB26402020202HEB2c12B2b8AbK31314R3731bOb5362b620b7928DQ" ++
        "64O0F0402P6IED3c7342E2T39q822bK3H344OH227313L26204330263132A051243K8035513L2621212130" ++
        "245132C3208ED22620222L26212439222230G069I227313L2621333741329151225AI1254223412021414" ++
        "24722544223A0GBF227222M292456222381A159J127222M292456222381802159J127222M2F553223A091" ++
        "59eIbP5Sb61203120307326222020312C223420253931o3b5Bb6505cP6c36cHda7eQ6cP7L353b53537202" ++
        "0202U3bK2E2D352I32282bE2Mb464QIAb6HVbORbFEcQMhHF02dOe6b4SAMeAMeLBcFHJ7cLeI3233R2b2202" ++
        "3402636FU4N2Dcc2bN802cJ553cT7b75cT2Fd1S4b3TR4bHGB5bE2dM5d23Ugq2un5qcRgrDgJ6D47O242021" ++
        "212dBb2lCHbV3bLb9Bb53DK592I2352202e6302cT3cT453535324626F2"),
    (["2.0", "v20"],
      "bmHG2CL0cjSc72b08Q55202K4620dx20qG0bcWLkZ3ckcR1b__V1b__V1b__V1b__V1b__V1b__V1b__V1b__V1" ++
        "b__V1b__V1b__V1b__V1b__Veaa1"),
    (["2.1", "v21"],
      "ifC0bxWG0"),
    (["3.0", "v30"],
      "pM3V73HdM4bI0B4cO8K0dL040202020V0D0c30D0bB133cT1eT0g92d3160G0bB42D2T4QbMbGboI12H4N28203" ++
        "640552027J2lM0bC0O280222E30bHb1242126437Pn762bU20233620233b620233U202336202336262M2U2" ++
        "023362b62I7Rb4cKDtLAS4cGeGcS49NE297cN9b9bY60P5d02bJ1cM1c90d88iE0dQ02TeB1oA7b20cN1mFhV" ++
        "bm1P2cODgLRBbT240l2Ns9gnLusBbeC4H3F2B2220vsN0bgS2"),
    (["3.1", "v31"],
      "_K1b.oRVbiHU23DQfMb53b5bsZJhLBb64fJr3cK2c6213031332B2023212c02337262R232420462kH5j15bHk" ++
        "a1bjwMujAqTwbp40VcV"),
    (["3.2", "v32"],
      "r00jF0KCd91T0eK1bQ13131bIFkV1k20ck61bq8C26CMAJDC2221cgK0745084E0bV1bJ6cJEf9BhJDdT0VbJiT" ++
        "JeO9cP7N1cRB39gVDcRR5Fi1pVbjS2cO191cV0hHFcIEcIEYp31H0D040vlBbQYI04FbM1bD0hC1"),
    (["4.0", "v40"],
      "r10J2dO1c0GcH762eO4q53A8c12eM1G0bE2U2nL0fP0c4020e90cL2E0c40bS0e27g21cz00J9i7S4B5B504b93" ++
        "4dCVy1dBx81h70uK1jF0iL1dL7F1bcVDbyG1bI0bC1cF3f83d41b00go1bVbl_U0cA1nOB2P2I212E3Db3dQ6" ++
        "25bC48s1T20e71b7cF39WN5302bB214030bsw1cMlB0ylbVhF"),
    (["4.1", "v41"],
      "rNAiN4f03hN1fB0b32c40J0bR5hITqG0cH0p80bG0_A1j8120iB0c00c00b80b00b00b00G0b80O1b0Pbp7b97P" ++
        "7951b1R31WDcNuI126bI4U3bM0cH0G0u5ArT0d61JA6FiF6W85hDbE2bEb2dAFbCBbLA0HMA6262626262626" ++
        "26b2N51Z3FfF0Xj8LbW5MhAbBus5d9zN9z7cAqMb35DbrB32167222Q525898brZ8c5bcV1"),
    (["5.0", "v50"],
      "s2DjC2kI0bB5H3f70q6bQm1121X31E1dqEcB5bCs86bK1xD3cU1bM0sOBwB0iL3WA663jTC83.v0361iVbNye9P" ++
        "60fx1XEeId2E3blxDHbcP1"),
    (["5.1", "v51"],
      "XG331cO0fO0eDFh34C4b14jFHpI1gV0b40gF0U1dD0dD0R191L7fU070U1D546pC1d2042cE060308255RbV51c" ++
        "aB0wMbA4Bc7bN4E4bIkCRfM3cR5l50eC0cV0bM3biL0M943i90b03zC45b844iP22255l3VP33IxT0f3JXoP7" ++
        "bjTjBLV3H9Re443dAdF4e1c4ABb7cJC0f1bMAD3933u.52XABbLbDe3S4bGbsGP60br_A0hwNbB5d3"),
    (["5.2", "v52"],
      "bj41wRbD3Eg20cE070b41e10boQ3g23fT4c54cJ5q10tN8rHc5fL1bF0c6bU2S3A797Dr3b2iB0vP2eO2bN0sV0" ++
        "vM1U2592I205NcO0_U4iN0E1dC6k00baJBXlL7bi5bFn1cNjP9f7Rd5S4cD2A51e1R5c2P4h1bD39kZNM5bGi" ++
        "tG2doJL28fR1k5Ve1bL4S3Q67e1c8qOUq2c1hzVbbEbpgIA6U30C0203040449080Q02130B330dG0Gb1F8bn" ++
        "fOebK"),
    (["6.0", "v60"],
      "bj61hP0bV0p1R30gS1K071S4pR5nI0H0K0rU3cA1Y31cd2bJ93pT0uP7T0zGAwR0K023U051T0b402052A1bL2P" ++
        "0F0F1bn10F0bbP2Zf61jC121F9cH0y753535A626ue4FfbVcD5TvYHrOro81qeVE3D3E2EcH02A2021222267" ++
        "2629782031295129cCP21bG8M1fFb0G52c54JDb424MGGbU202fL234bTJNeK42F2220202022253320332B5" ++
        "AbHc5bRdJbp.DgT"),
    (["6.1", "v61"],
      "bmF0dL0uS02AbOQpI0_E1p8060bG2cvC2D5i17bC3cwL020bj51bK060bP1gB9YmH0bv87b40hJ1N0cE1x7MtzO" ++
        "1dWHbN71byHO897bK2DbTc889bf7bN99wbNc4CbEHG_t132Q2120302923202070502020222120302020202" ++
        "021203326232320292G62242GbL1tP1.L3fT0H0402020204071502150"),
    (["6.2", "v62"],
      "ifQ0"),
    (["6.3", "v63"],
      "bqS0gsA3"),
    (["7.0", "v70"],
      "XV0n97cU1dN0uS0C5cD0dP080u00bK0cD0e00h59ci27r51mIErQ1hEEw62zN6y60bcD2BP3V3b14B27tB6.cM5" ++
        "hNBC231c60p9UdU3fHbF51uw26WU1K0k0Rb40bHbAm6b79bJC0eHjMALB7hPbU98oHVb1b65BeAH83D6bgG0g" ++
        "Hb6cN0D07JCH2bAdJbQ698227313L262124383132A0663644iCc799f7bL3HbNc4C9s7cID0o1bOcdNb9gBB" ++
        "60roCU2951d1T35Bc5B9262K6IudHdA6C488937kWTg43Fb_90b1LM1qLBA0c70NBb60636BI6c8020fN051c" ++
        "0156UH2b82cLc71EbFc79HC43eDcKbCB5bN997b79T"),
    (["8.0", "v80"],
      "cfJ1bF0qM0l10i50buM035dg10gC1ct13Y.U8bw90hH0b35k51t33DcFutF1cvHI2164fT13F3bDu1bIEbI85bg" ++
        "A3F4f1620232E2AcN0cG0tQJj3P4E5FdcQ0h7g3hvTs6bcYOAbqOuBG42EgdU2cF1cG4b57i00cC4hK1eC0s0" ++
        "8d84bS0bpt0fu1"),
    (["9.0", "v90"],
      "cfM7NEYU0gF05226O2dy88lJ0bq03cs51.lA0iN0wg81z2b35b3dk30o2cP2020q3CbmK82bC2DBS4V3L2DuzA0" ++
        "b0f_CKxIviE62G362124cgMcA6951cbSHeF0zV0bA0jD1b22r3527903B2B5Eb7C"),
    (["10.0", "v100"],
      "cd0AmI1hT5q10bR1dZR0hV3w60W00b.J0tJ4x50Xv8KyW32fwHc79bJ3M24sU6212bB40212899uu80qb1iScIm" ++
        "BpX55bdE1b31q8BK09721Q0JCb75bPMbvgAhjG"),
    (["11.0", "v110"],
      "bl00b80d70qE2gK0jB0dO0mE0e00c_K0baObA32dxR2NO5EsC4x10XvS4b.0091k51yjL1J0vOb799o7b79b9lK" ++
        "0dN2pL0j30vS0h6bRt20w35212b4212589jNOtW8cQgkJ4sxFJdV6ghPc3bdR0boA0gS3lL2T4334023PAE98" ++
        "1b5Od1D"),
    (["12.0", "v120"],
      "ddN0qF030302550808130E0ds00dwF0bM0sG0.lB534Z01zdPMbd90sP0x873bD3Af01bjRbHE0fbH8oyD550bG" ++
        "8cR1gaF5kkP2I3lYPbC4D3951lHbP60bsC0ZMbSbbF0bl90b50h6Bj22bG0bI0A0bA541B54732bHcJT35262" ++
        "E5"),
    (["12.1", "v121"],
      "mxV0"),
    (["13.0", "v130"],
      "cfU9uE0nF0dT0djU1egN0vP2X94g_N9urHCb.B3bB1bM0zS3vrH0dh4b92231hVRlS0e71uB061beV63037212T" ++
        "213BA9bsN0ubK0C1gy2p2bB8za52cU2bU0bj91b41nK1cR0d6051bB172U0f90F3GI86A2E6bAeI2bMb69bkw" ++
        "U6wj3eWA"),
    (["14.0", "v140"],
      "bqT0sJU2177M0JAXA0b10e00crG080A0hG0vIDdU0bH1tS0w60cXF0bG0pKAYn02b.11F12024P2u.E0lUFe00b" ++
        "F1bXHA2E26212A2E2621o452b928bZMPh75cD0bpN0e76XAFfgHd2otUcE29rj732621j13hoUbD3MAdJr61d" ++
        "iMUXIUbjI623212EdwV2iH0m90cJ0fF1bD3B392I27796bk_81ecM3"),
    (["15.0", "v150"],
      "dhJ0oR0cabF2W02cfV9_NG2b84RfgM0AS_gT0b30ilBJdcI5i6bTb20bc1b9ep30eO254cQ0uS2G1b52C220F1B" ++
        "1D0F1bpc10xaNecV"),
    (["15.1", "v151"],
      "l_S3pG0foq1tD"),
    (["16.0", "v160"],
      "ceN0evN1bG0iA1bYT2dnR1Zp62D2xp4bJbWDb54S91jJ2bO0be4920302b529203023292191xEJbgTb1F9X10f" ++
        "i6dYQhi6bPda7bPhY60py1hP7nJfyTbA50evJ951o8060bF080M030A0h2b4")]

/-- The characters of a version: those that it added, and those of all versions
before it. -/
def age? (name : String) : Option CharSet :=
  let earlier := ageData.takeWhile fun entry => !entry.1.contains name
  (ageData.drop earlier.length).head?.map fun entry =>
    CharSet.unionAll ((earlier ++ [entry]).map fun entry => CharSet.unpack entry.2)

end WorkflowAudit.Unicode
