import CorridorRank.Text.Ranges
import CorridorRank.Text.Basic

/-!
# Upper case

The full upper-case mapping of Unicode 14.0: most characters map to one character, found in
runs of code points that share an offset (consecutive, or every second one for alternating
case pairs); a few map to several characters (`ß` to `SS`, the ligature `ﬀ` to `FF`). A
character with no mapping, and a lone surrogate, stays as it is.
-/

namespace CorridorRank.Text

/-- A run of characters `start, start + step, …` (`count` of them) whose upper case is the
character `offset` code points away. -/
structure CaseRun where
  start : Nat
  count : Nat
  step : Nat
  offset : Int

/-- Runs of one-character mappings, increasing by start. -/
def upperRuns : Array CaseRun := #[
  ⟨97, 26, 1, -32⟩, ⟨181, 1, 1, 743⟩, ⟨224, 23, 1, -32⟩, ⟨248, 7, 1, -32⟩, ⟨255, 1, 1, 121⟩,
  ⟨257, 24, 2, -1⟩, ⟨305, 1, 1, -232⟩, ⟨307, 3, 2, -1⟩, ⟨314, 8, 2, -1⟩, ⟨331, 23, 2, -1⟩,
  ⟨378, 3, 2, -1⟩, ⟨383, 1, 1, -300⟩, ⟨384, 1, 1, 195⟩, ⟨387, 2, 2, -1⟩, ⟨392, 1, 1, -1⟩,
  ⟨396, 1, 1, -1⟩, ⟨402, 1, 1, -1⟩, ⟨405, 1, 1, 97⟩, ⟨409, 1, 1, -1⟩, ⟨410, 1, 1, 163⟩,
  ⟨414, 1, 1, 130⟩, ⟨417, 3, 2, -1⟩, ⟨424, 1, 1, -1⟩, ⟨429, 1, 1, -1⟩, ⟨432, 1, 1, -1⟩,
  ⟨436, 2, 2, -1⟩, ⟨441, 1, 1, -1⟩, ⟨445, 1, 1, -1⟩, ⟨447, 1, 1, 56⟩, ⟨453, 1, 1, -1⟩,
  ⟨454, 1, 1, -2⟩, ⟨456, 1, 1, -1⟩, ⟨457, 1, 1, -2⟩, ⟨459, 1, 1, -1⟩, ⟨460, 1, 1, -2⟩,
  ⟨462, 8, 2, -1⟩, ⟨477, 1, 1, -79⟩, ⟨479, 9, 2, -1⟩, ⟨498, 1, 1, -1⟩, ⟨499, 1, 1, -2⟩,
  ⟨501, 1, 1, -1⟩, ⟨505, 20, 2, -1⟩, ⟨547, 9, 2, -1⟩, ⟨572, 1, 1, -1⟩, ⟨575, 2, 1, 10815⟩,
  ⟨578, 1, 1, -1⟩, ⟨583, 5, 2, -1⟩, ⟨592, 1, 1, 10783⟩, ⟨593, 1, 1, 10780⟩, ⟨594, 1, 1, 10782⟩,
  ⟨595, 1, 1, -210⟩, ⟨596, 1, 1, -206⟩, ⟨598, 2, 1, -205⟩, ⟨601, 1, 1, -202⟩, ⟨603, 1, 1, -203⟩,
  ⟨604, 1, 1, 42319⟩, ⟨608, 1, 1, -205⟩, ⟨609, 1, 1, 42315⟩, ⟨611, 1, 1, -207⟩, ⟨613, 1, 1, 42280⟩,
  ⟨614, 1, 1, 42308⟩, ⟨616, 1, 1, -209⟩, ⟨617, 1, 1, -211⟩, ⟨618, 1, 1, 42308⟩, ⟨619, 1, 1, 10743⟩,
  ⟨620, 1, 1, 42305⟩, ⟨623, 1, 1, -211⟩, ⟨625, 1, 1, 10749⟩, ⟨626, 1, 1, -213⟩, ⟨629, 1, 1, -214⟩,
  ⟨637, 1, 1, 10727⟩, ⟨640, 1, 1, -218⟩, ⟨642, 1, 1, 42307⟩, ⟨643, 1, 1, -218⟩, ⟨647, 1, 1, 42282⟩,
  ⟨648, 1, 1, -218⟩, ⟨649, 1, 1, -69⟩, ⟨650, 2, 1, -217⟩, ⟨652, 1, 1, -71⟩, ⟨658, 1, 1, -219⟩,
  ⟨669, 1, 1, 42261⟩, ⟨670, 1, 1, 42258⟩, ⟨837, 1, 1, 84⟩, ⟨881, 2, 2, -1⟩, ⟨887, 1, 1, -1⟩,
  ⟨891, 3, 1, 130⟩, ⟨940, 1, 1, -38⟩, ⟨941, 3, 1, -37⟩, ⟨945, 17, 1, -32⟩, ⟨962, 1, 1, -31⟩,
  ⟨963, 9, 1, -32⟩, ⟨972, 1, 1, -64⟩, ⟨973, 2, 1, -63⟩, ⟨976, 1, 1, -62⟩, ⟨977, 1, 1, -57⟩,
  ⟨981, 1, 1, -47⟩, ⟨982, 1, 1, -54⟩, ⟨983, 1, 1, -8⟩, ⟨985, 12, 2, -1⟩, ⟨1008, 1, 1, -86⟩,
  ⟨1009, 1, 1, -80⟩, ⟨1010, 1, 1, 7⟩, ⟨1011, 1, 1, -116⟩, ⟨1013, 1, 1, -96⟩, ⟨1016, 1, 1, -1⟩,
  ⟨1019, 1, 1, -1⟩, ⟨1072, 32, 1, -32⟩, ⟨1104, 16, 1, -80⟩, ⟨1121, 17, 2, -1⟩, ⟨1163, 27, 2, -1⟩,
  ⟨1218, 7, 2, -1⟩, ⟨1231, 1, 1, -15⟩, ⟨1233, 48, 2, -1⟩, ⟨1377, 38, 1, -48⟩, ⟨4304, 43, 1, 3008⟩,
  ⟨4349, 3, 1, 3008⟩, ⟨5112, 6, 1, -8⟩, ⟨7296, 1, 1, -6254⟩, ⟨7297, 1, 1, -6253⟩, ⟨7298, 1, 1, -6244⟩,
  ⟨7299, 2, 1, -6242⟩, ⟨7301, 1, 1, -6243⟩, ⟨7302, 1, 1, -6236⟩, ⟨7303, 1, 1, -6181⟩, ⟨7304, 1, 1, 35266⟩,
  ⟨7545, 1, 1, 35332⟩, ⟨7549, 1, 1, 3814⟩, ⟨7566, 1, 1, 35384⟩, ⟨7681, 75, 2, -1⟩, ⟨7835, 1, 1, -59⟩,
  ⟨7841, 48, 2, -1⟩, ⟨7936, 8, 1, 8⟩, ⟨7952, 6, 1, 8⟩, ⟨7968, 8, 1, 8⟩, ⟨7984, 8, 1, 8⟩,
  ⟨8000, 6, 1, 8⟩, ⟨8017, 4, 2, 8⟩, ⟨8032, 8, 1, 8⟩, ⟨8048, 2, 1, 74⟩, ⟨8050, 4, 1, 86⟩,
  ⟨8054, 2, 1, 100⟩, ⟨8056, 2, 1, 128⟩, ⟨8058, 2, 1, 112⟩, ⟨8060, 2, 1, 126⟩, ⟨8112, 2, 1, 8⟩,
  ⟨8126, 1, 1, -7205⟩, ⟨8144, 2, 1, 8⟩, ⟨8160, 2, 1, 8⟩, ⟨8165, 1, 1, 7⟩, ⟨8526, 1, 1, -28⟩,
  ⟨8560, 16, 1, -16⟩, ⟨8580, 1, 1, -1⟩, ⟨9424, 26, 1, -26⟩, ⟨11312, 48, 1, -48⟩, ⟨11361, 1, 1, -1⟩,
  ⟨11365, 1, 1, -10795⟩, ⟨11366, 1, 1, -10792⟩, ⟨11368, 3, 2, -1⟩, ⟨11379, 1, 1, -1⟩, ⟨11382, 1, 1, -1⟩,
  ⟨11393, 50, 2, -1⟩, ⟨11500, 2, 2, -1⟩, ⟨11507, 1, 1, -1⟩, ⟨11520, 38, 1, -7264⟩, ⟨11559, 1, 1, -7264⟩,
  ⟨11565, 1, 1, -7264⟩, ⟨42561, 23, 2, -1⟩, ⟨42625, 14, 2, -1⟩, ⟨42787, 7, 2, -1⟩, ⟨42803, 31, 2, -1⟩,
  ⟨42874, 2, 2, -1⟩, ⟨42879, 5, 2, -1⟩, ⟨42892, 1, 1, -1⟩, ⟨42897, 2, 2, -1⟩, ⟨42900, 1, 1, 48⟩,
  ⟨42903, 10, 2, -1⟩, ⟨42933, 8, 2, -1⟩, ⟨42952, 2, 2, -1⟩, ⟨42961, 1, 1, -1⟩, ⟨42967, 2, 2, -1⟩,
  ⟨42998, 1, 1, -1⟩, ⟨43859, 1, 1, -928⟩, ⟨43888, 80, 1, -38864⟩, ⟨65345, 26, 1, -32⟩, ⟨66600, 40, 1, -40⟩,
  ⟨66776, 36, 1, -40⟩, ⟨66967, 11, 1, -39⟩, ⟨66979, 15, 1, -39⟩, ⟨66995, 7, 1, -39⟩, ⟨67003, 2, 1, -39⟩,
  ⟨68800, 51, 1, -64⟩, ⟨71872, 32, 1, -32⟩, ⟨93792, 32, 1, -32⟩, ⟨125218, 34, 1, -34⟩]

/-- Characters whose upper case is several characters, increasing by code point. -/
def upperExpansions : Array (Nat × List Char) := #[
  (223, [Char.ofNat 83, Char.ofNat 83]), (329, [Char.ofNat 700, Char.ofNat 78]), (496, [Char.ofNat 74, Char.ofNat 780]),
  (912, [Char.ofNat 921, Char.ofNat 776, Char.ofNat 769]), (944, [Char.ofNat 933, Char.ofNat 776, Char.ofNat 769]), (1415, [Char.ofNat 1333, Char.ofNat 1362]),
  (7830, [Char.ofNat 72, Char.ofNat 817]), (7831, [Char.ofNat 84, Char.ofNat 776]), (7832, [Char.ofNat 87, Char.ofNat 778]),
  (7833, [Char.ofNat 89, Char.ofNat 778]), (7834, [Char.ofNat 65, Char.ofNat 702]), (8016, [Char.ofNat 933, Char.ofNat 787]),
  (8018, [Char.ofNat 933, Char.ofNat 787, Char.ofNat 768]), (8020, [Char.ofNat 933, Char.ofNat 787, Char.ofNat 769]), (8022, [Char.ofNat 933, Char.ofNat 787, Char.ofNat 834]),
  (8064, [Char.ofNat 7944, Char.ofNat 921]), (8065, [Char.ofNat 7945, Char.ofNat 921]), (8066, [Char.ofNat 7946, Char.ofNat 921]),
  (8067, [Char.ofNat 7947, Char.ofNat 921]), (8068, [Char.ofNat 7948, Char.ofNat 921]), (8069, [Char.ofNat 7949, Char.ofNat 921]),
  (8070, [Char.ofNat 7950, Char.ofNat 921]), (8071, [Char.ofNat 7951, Char.ofNat 921]), (8072, [Char.ofNat 7944, Char.ofNat 921]),
  (8073, [Char.ofNat 7945, Char.ofNat 921]), (8074, [Char.ofNat 7946, Char.ofNat 921]), (8075, [Char.ofNat 7947, Char.ofNat 921]),
  (8076, [Char.ofNat 7948, Char.ofNat 921]), (8077, [Char.ofNat 7949, Char.ofNat 921]), (8078, [Char.ofNat 7950, Char.ofNat 921]),
  (8079, [Char.ofNat 7951, Char.ofNat 921]), (8080, [Char.ofNat 7976, Char.ofNat 921]), (8081, [Char.ofNat 7977, Char.ofNat 921]),
  (8082, [Char.ofNat 7978, Char.ofNat 921]), (8083, [Char.ofNat 7979, Char.ofNat 921]), (8084, [Char.ofNat 7980, Char.ofNat 921]),
  (8085, [Char.ofNat 7981, Char.ofNat 921]), (8086, [Char.ofNat 7982, Char.ofNat 921]), (8087, [Char.ofNat 7983, Char.ofNat 921]),
  (8088, [Char.ofNat 7976, Char.ofNat 921]), (8089, [Char.ofNat 7977, Char.ofNat 921]), (8090, [Char.ofNat 7978, Char.ofNat 921]),
  (8091, [Char.ofNat 7979, Char.ofNat 921]), (8092, [Char.ofNat 7980, Char.ofNat 921]), (8093, [Char.ofNat 7981, Char.ofNat 921]),
  (8094, [Char.ofNat 7982, Char.ofNat 921]), (8095, [Char.ofNat 7983, Char.ofNat 921]), (8096, [Char.ofNat 8040, Char.ofNat 921]),
  (8097, [Char.ofNat 8041, Char.ofNat 921]), (8098, [Char.ofNat 8042, Char.ofNat 921]), (8099, [Char.ofNat 8043, Char.ofNat 921]),
  (8100, [Char.ofNat 8044, Char.ofNat 921]), (8101, [Char.ofNat 8045, Char.ofNat 921]), (8102, [Char.ofNat 8046, Char.ofNat 921]),
  (8103, [Char.ofNat 8047, Char.ofNat 921]), (8104, [Char.ofNat 8040, Char.ofNat 921]), (8105, [Char.ofNat 8041, Char.ofNat 921]),
  (8106, [Char.ofNat 8042, Char.ofNat 921]), (8107, [Char.ofNat 8043, Char.ofNat 921]), (8108, [Char.ofNat 8044, Char.ofNat 921]),
  (8109, [Char.ofNat 8045, Char.ofNat 921]), (8110, [Char.ofNat 8046, Char.ofNat 921]), (8111, [Char.ofNat 8047, Char.ofNat 921]),
  (8114, [Char.ofNat 8122, Char.ofNat 921]), (8115, [Char.ofNat 913, Char.ofNat 921]), (8116, [Char.ofNat 902, Char.ofNat 921]),
  (8118, [Char.ofNat 913, Char.ofNat 834]), (8119, [Char.ofNat 913, Char.ofNat 834, Char.ofNat 921]), (8124, [Char.ofNat 913, Char.ofNat 921]),
  (8130, [Char.ofNat 8138, Char.ofNat 921]), (8131, [Char.ofNat 919, Char.ofNat 921]), (8132, [Char.ofNat 905, Char.ofNat 921]),
  (8134, [Char.ofNat 919, Char.ofNat 834]), (8135, [Char.ofNat 919, Char.ofNat 834, Char.ofNat 921]), (8140, [Char.ofNat 919, Char.ofNat 921]),
  (8146, [Char.ofNat 921, Char.ofNat 776, Char.ofNat 768]), (8147, [Char.ofNat 921, Char.ofNat 776, Char.ofNat 769]), (8150, [Char.ofNat 921, Char.ofNat 834]),
  (8151, [Char.ofNat 921, Char.ofNat 776, Char.ofNat 834]), (8162, [Char.ofNat 933, Char.ofNat 776, Char.ofNat 768]), (8163, [Char.ofNat 933, Char.ofNat 776, Char.ofNat 769]),
  (8164, [Char.ofNat 929, Char.ofNat 787]), (8166, [Char.ofNat 933, Char.ofNat 834]), (8167, [Char.ofNat 933, Char.ofNat 776, Char.ofNat 834]),
  (8178, [Char.ofNat 8186, Char.ofNat 921]), (8179, [Char.ofNat 937, Char.ofNat 921]), (8180, [Char.ofNat 911, Char.ofNat 921]),
  (8182, [Char.ofNat 937, Char.ofNat 834]), (8183, [Char.ofNat 937, Char.ofNat 834, Char.ofNat 921]), (8188, [Char.ofNat 937, Char.ofNat 921]),
  (64256, [Char.ofNat 70, Char.ofNat 70]), (64257, [Char.ofNat 70, Char.ofNat 73]), (64258, [Char.ofNat 70, Char.ofNat 76]),
  (64259, [Char.ofNat 70, Char.ofNat 70, Char.ofNat 73]), (64260, [Char.ofNat 70, Char.ofNat 70, Char.ofNat 76]), (64261, [Char.ofNat 83, Char.ofNat 84]),
  (64262, [Char.ofNat 83, Char.ofNat 84]), (64275, [Char.ofNat 1348, Char.ofNat 1350]), (64276, [Char.ofNat 1348, Char.ofNat 1333]),
  (64277, [Char.ofNat 1348, Char.ofNat 1339]), (64278, [Char.ofNat 1358, Char.ofNat 1350]), (64279, [Char.ofNat 1348, Char.ofNat 1341])]

/-- The starts of `upperRuns`, for searching. -/
def upperRunStarts : Array Nat := upperRuns.map (·.start)

/-- The starts of `upperExpansions`, for searching. -/
def upperExpansionKeys : Array Nat := upperExpansions.map (·.1)

/-- The upper case of one character, as the characters that replace it. -/
def upperChar
    (c : Char) :
    List Char :=
  let n := c.toNat
  let expanded := match Ranges.indexOfLastAtMost upperExpansionKeys n with
    | some i => (upperExpansions[i]?).bind fun (k, cs) => if k == n then some cs else none
    | none => none
  match expanded with
  | some cs => cs
  | none =>
    match Ranges.indexOfLastAtMost upperRunStarts n with
    | some i =>
      match upperRuns[i]? with
      | some r =>
        let d := n - r.start
        if d % r.step == 0 && d / r.step < r.count then
          [Char.ofNat (((n : Int) + r.offset).toNat)]
        else [c]
      | none => [c]
    | none => [c]

/-- The upper case of one code point; a lone surrogate has none. -/
def upperPoint
    (n : Nat) :
    List Nat :=
  if isSurrogate n then [n] else (upperChar (Char.ofNat n)).map Char.toNat

/-- The upper case of a text, code point by code point. -/
def upper
    (t : Text) :
    Text :=
  ⟨t.points.flatMap upperPoint⟩

end CorridorRank.Text
