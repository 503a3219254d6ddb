import Predictive.Text.Ranges

/-! The direction in which a character is written. Digits, marks and punctuation have none of their
own. The tables are for characters that folding leaves as they are. -/

set_option autoImplicit false

namespace Predictive.Gateway

open Text

/-- The letters that are written from right to left, such as those of Hebrew and Arabic. -/
def rightToLeftRanges : List (Nat × Nat) :=
  [(1470, 1470), (1472, 1472), (1475, 1475), (1488, 1514), (1520, 1524), (1563, 1563),
   (1567, 1567), (1569, 1594), (1600, 1610), (1645, 1647), (1649, 1749), (1757, 1757),
   (1765, 1766), (1786, 1790), (1792, 1805), (1808, 1808), (1810, 1836), (1920, 1957),
   (1969, 1969), (8207, 8207), (65139, 65139)]

/-- The letters that are written from left to right. -/
def leftToRightRanges : List (Nat × Nat) :=
  [(97, 122), (224, 246), (248, 543), (547, 563), (592, 685), (699, 705), (720, 721), (750, 750),
   (912, 912), (940, 1011), (1072, 1154), (1163, 1230), (1233, 1269), (1273, 1273), (1281, 1295),
   (1369, 1375), (1377, 1414), (1417, 1417), (2307, 2307), (2309, 2361), (2365, 2368),
   (2377, 2380), (2384, 2384), (2400, 2401), (2404, 2416), (2434, 2435), (2437, 2444),
   (2447, 2448), (2451, 2472), (2474, 2480), (2482, 2482), (2486, 2489), (2494, 2496),
   (2503, 2504), (2507, 2508), (2519, 2519), (2528, 2529), (2534, 2545), (2548, 2554),
   (2565, 2570), (2575, 2576), (2579, 2600), (2602, 2608), (2610, 2610), (2613, 2613),
   (2616, 2617), (2622, 2624), (2652, 2652), (2662, 2671), (2674, 2676), (2691, 2691),
   (2693, 2699), (2701, 2701), (2703, 2705), (2707, 2728), (2730, 2736), (2738, 2739),
   (2741, 2745), (2749, 2752), (2761, 2761), (2763, 2764), (2768, 2768), (2784, 2784),
   (2790, 2799), (2818, 2819), (2821, 2828), (2831, 2832), (2835, 2856), (2858, 2864),
   (2866, 2867), (2870, 2873), (2877, 2878), (2880, 2880), (2887, 2888), (2891, 2892),
   (2903, 2903), (2911, 2913), (2918, 2928), (2947, 2947), (2949, 2954), (2958, 2960),
   (2962, 2965), (2969, 2970), (2972, 2972), (2974, 2975), (2979, 2980), (2984, 2986),
   (2990, 2997), (2999, 3001), (3006, 3007), (3009, 3010), (3014, 3016), (3018, 3020),
   (3031, 3031), (3047, 3058), (3073, 3075), (3077, 3084), (3086, 3088), (3090, 3112),
   (3114, 3123), (3125, 3129), (3137, 3140), (3168, 3169), (3174, 3183), (3202, 3203),
   (3205, 3212), (3214, 3216), (3218, 3240), (3242, 3251), (3253, 3257), (3262, 3262),
   (3264, 3268), (3271, 3272), (3274, 3275), (3285, 3286), (3294, 3294), (3296, 3297),
   (3302, 3311), (3330, 3331), (3333, 3340), (3342, 3344), (3346, 3368), (3370, 3385),
   (3390, 3392), (3398, 3400), (3402, 3404), (3415, 3415), (3424, 3425), (3430, 3439),
   (3458, 3459), (3461, 3478), (3482, 3505), (3507, 3515), (3517, 3517), (3520, 3526),
   (3535, 3537), (3544, 3551), (3570, 3572), (3585, 3632), (3634, 3634), (3648, 3654),
   (3663, 3675), (3713, 3714), (3716, 3716), (3719, 3720), (3722, 3722), (3725, 3725),
   (3732, 3735), (3737, 3743), (3745, 3747), (3749, 3749), (3751, 3751), (3754, 3755),
   (3757, 3760), (3762, 3762), (3773, 3773), (3776, 3780), (3782, 3782), (3792, 3801),
   (3840, 3863), (3866, 3892), (3894, 3894), (3896, 3896), (3902, 3911), (3913, 3946),
   (3967, 3967), (3973, 3973), (3976, 3979), (4030, 4037), (4039, 4044), (4047, 4047),
   (4096, 4129), (4131, 4135), (4137, 4138), (4140, 4140), (4145, 4145), (4152, 4152),
   (4160, 4183), (4304, 4344), (4347, 4347), (4352, 4441), (4447, 4514), (4520, 4601),
   (4608, 4614), (4616, 4678), (4680, 4680), (4682, 4685), (4688, 4694), (4696, 4696),
   (4698, 4701), (4704, 4742), (4744, 4744), (4746, 4749), (4752, 4782), (4784, 4784),
   (4786, 4789), (4792, 4798), (4800, 4800), (4802, 4805), (4808, 4814), (4816, 4822),
   (4824, 4846), (4848, 4878), (4880, 4880), (4882, 4885), (4888, 4894), (4896, 4934),
   (4936, 4954), (4961, 4988), (5121, 5750), (5761, 5786), (5792, 5872), (5888, 5900),
   (5902, 5905), (5920, 5937), (5941, 5942), (5952, 5969), (5984, 5996), (5998, 6000),
   (6016, 6070), (6078, 6085), (6087, 6088), (6100, 6106), (6108, 6108), (6112, 6121),
   (6160, 6169), (6176, 6263), (6272, 6312), (7681, 7833), (7841, 7929), (7936, 7957),
   (7968, 8005), (8016, 8023), (8032, 8060), (8112, 8113), (8118, 8118), (8134, 8146),
   (8150, 8151), (8160, 8167), (8182, 8182), (8206, 8206), (8576, 8578), (9014, 9082),
   (9109, 9109), (12293, 12295), (12321, 12329), (12337, 12341), (12347, 12348), (12353, 12438),
   (12445, 12446), (12449, 12538), (12540, 12542), (12549, 12588), (12688, 12727), (12784, 12799),
   (12927, 12927), (13312, 19893), (19968, 40869), (40960, 42124), (44032, 55203), (55296, 64041),
   (66304, 66334), (66336, 66339), (66352, 66378), (66600, 66637), (118784, 119029),
   (119040, 119078), (119082, 119142), (119146, 119154), (119171, 119172), (119180, 119209),
   (119214, 119261), (131072, 173782), (983040, 1048573), (1048576, 1114109)]

def isRightToLeft (point : Nat) : Bool :=
  inRanges rightToLeftRanges point

def isLeftToRight (point : Nat) : Bool :=
  inRanges leftToRightRanges point

end Predictive.Gateway
