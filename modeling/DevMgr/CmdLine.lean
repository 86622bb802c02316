import DevMgr.CmdArgs
import DevMgr.ShellWords
/-!
# CmdLine — the command lines, and what the shell makes of them

`BuildCmdline` of the command classes prints into a buffer of 500 bytes, and `AdbCmd::CreateChildProcess` has `sh -c`
read it.  The templates put the paths of push, pull and delete between double quotes, and the rest as it is.
-/
namespace DevMgr

open MiscUtils BufferItem CmdArgs

def maxAdbCmdLen : Nat := 500

/-- The string in a buffer that `_snprintf` has printed to. -/
def printed (str : List BYTE) (size : Nat) : List BYTE := str.take (size - 1)

def adbServicedName : List BYTE := ascii "infoview.service"
def adbApklistFile : List BYTE := ascii "/sdcard/tablet_info/_app.lst"
def adbScreencapFile : List BYTE := ascii "/sdcard/tablet_info/_scr.png"

/-- `_Cmdline` after `BuildCmdline`; `AdbCmdGetSysInfo` leaves it empty. -/
def Command.buildCmdline (szDevId : List BYTE) : Command → List BYTE
  | .installApk szApkPath => printed (ascii "adb -s " ++ szDevId ++ ascii " install -r " ++ szApkPath) maxAdbCmdLen
  | .uninstallApk szApkName => printed (ascii "adb -s " ++ szDevId ++ ascii " uninstall " ++ szApkName) maxAdbCmdLen
  | .pushPullFile szFilePathH szPathD szFileD bPush =>
    let fname := printed (szPathD ++ szFileD) maxPath
    if bPush then printed (ascii "adb -s " ++ szDevId ++ ascii " push \"" ++ szFilePathH ++ ascii "\" \"" ++ fname ++
      ascii "\"") maxAdbCmdLen
    else printed (ascii "adb -s " ++ szDevId ++ ascii " pull \"" ++ fname ++ ascii "\" \"" ++ szFilePathH ++
      ascii "\"") maxAdbCmdLen
  | .startService szArgs => printed (ascii "adb -s " ++ szDevId ++ ascii " shell am startservice " ++ szArgs ++
      ascii " --user 0 -a " ++ adbServicedName) maxAdbCmdLen
  | .getSysInfo _ => []
  | .getBattInfo => printed (ascii "adb -s " ++ szDevId ++ ascii " shell dumpsys battery") maxAdbCmdLen
  | .getDiskInfo => printed (ascii "adb -s " ++ szDevId ++ ascii " shell dumpsys diskstats") maxAdbCmdLen
  | .getApkList _ => printed (ascii "adb -s " ++ szDevId ++ ascii " shell cat \"" ++ adbApklistFile ++ ascii "\"")
      maxAdbCmdLen
  | .screenCap _ => printed (ascii "adb -s " ++ szDevId ++ ascii " shell screencap -p " ++ adbScreencapFile)
      maxAdbCmdLen
  | .delFile szFileName => printed (ascii "adb -s " ++ szDevId ++ ascii " shell rm \"" ++ szFileName ++ ascii "\"")
      maxAdbCmdLen

/-- What the characters are to the shell. -/
def shKind (c : BYTE) : Shell.Kind :=
  if c = 32 ∨ c = 9 then .blank
  else if c = 10 then .newline
  else if c ∈ ascii ";&|<>()" then .operator
  else if c ∈ ascii "$`" then .expansion
  else if c = 92 then .backslash
  else if c = 39 then .squote
  else if c = 34 then .dquote
  else .plain

namespace CmdLine

open Shell (Piece line)

/-- The words that a command asks for, with the quotes of its template. -/
def askedPieces (cfg : ConfigCenter) (szDevId : List BYTE) (cmdCode : DevCmdCode) (s : List BYTE) : List (Piece BYTE) :=
  [.bare (ascii "adb"), .bare (ascii "-s"), .bare szDevId] ++ match cmdCode with
  | .installApp | .installInfoview => [.bare (ascii "install"), .bare (ascii "-r"), .bare (cfg.appDir ++ s)]
  | .uninstallApp => [.bare (ascii "uninstall"), .bare s]
  | .pushFile =>
    [.bare (ascii "push"), .quoted (cfg.hostFileDir ++ hostFile s), .quoted (cfg.devFileDir ++ deviceFile s)]
  | .pullFile =>
    [.bare (ascii "pull"), .quoted (cfg.devFileDir ++ deviceFile s), .quoted (cfg.hostFileDir ++ hostFile s)]
  | .delFile => [.bare (ascii "shell"), .bare (ascii "rm"), .quoted (cfg.devFileDir ++ s)]
  | _ => []

def askedWords (cfg : ConfigCenter) (szDevId : List BYTE) (cmdCode : DevCmdCode) (s : List BYTE) : List (List BYTE) :=
  (askedPieces cfg szDevId cmdCode s).map Piece.word

/-- The codes whose command lines hold the arguments of the request. -/
def takesText : DevCmdCode → Bool
  | .installApp | .installInfoview | .uninstallApp | .pushFile | .pullFile | .delFile => true
  | _ => false

/-- A request whose command line is read as the words that it asks for. -/
def MeansAsked (cfg : ConfigCenter) (fresh : Nat → BYTE) (szDevId : List BYTE) (cmdCode : DevCmdCode)
    (s t : List BYTE) : Prop :=
  ∃ r cmd, convertArgs cfg fresh (some cmdCode) (s ++ 0 :: t) .new = .ok r ∧ r.dwRet = errorSuccess ∧
    SmartDeviceAdb.createCmd cmdCode r.biArgs = .ok cmd ∧
    Shell.read shKind (cmd.buildCmdline szDevId) = some (askedWords cfg szDevId cmdCode s)

/-- The paths that the fields and buffers of 256 bytes hold in full. -/
def PathsFit (cfg : ConfigCenter) (s : List BYTE) : DevCmdCode → Prop
  | .pushFile | .pullFile => (cfg.hostFileDir ++ hostFile s).length < maxPath ∧
      (cfg.devFileDir ++ deviceFile s).length < maxPath
  | .delFile => (cfg.devFileDir ++ s).length < maxPath
  | _ => True

/-- The requests that the templates are right for: everything fits its buffer, what stands as it is has no blank and
nothing special, and what stands between double quotes nothing that is special there. -/
structure Plain (cfg : ConfigCenter) (szDevId : List BYTE) (cmdCode : DevCmdCode) (s : List BYTE) : Prop where
  paths : PathsFit cfg s cmdCode
  fits : (line 32 34 (askedPieces cfg szDevId cmdCode s)).length < maxAdbCmdLen
  safe : ∀ p ∈ askedPieces cfg szDevId cmdCode s, p.Safe shKind

section
variable {cfg : ConfigCenter} {szDevId s : List BYTE} {b : BufferItem}

/-- A line of pieces in the buffer of the command line. -/
theorem read_printed (ps : List (Piece BYTE)) (hps : ps ≠ []) {ws : List (List BYTE)}
    (hcut : List.Forall₂ (fun p w => p.word <+: w) ps ws) :
    Shell.read shKind (printed (line 32 34 ps) maxAdbCmdLen) = some ws ↔
      (line 32 34 ps).length < maxAdbCmdLen ∧ ps.map Piece.word = ws ∧ ∀ p ∈ ps, p.Safe shKind := by
  rw [printed, Shell.read_take_iff (by decide) (by decide) hps hcut, Nat.le_sub_one_iff_lt (by decide)]

theorem forall₂_map_word (ps : List (Piece BYTE)) : List.Forall₂ (fun p w => p.word <+: w) ps (ps.map Piece.word) := by
  induction ps with
  | nil => exact .nil
  | cons p ps ih => exact .cons List.prefix_rfl ih

theorem meansAsked_of_convert {fresh : Nat → BYTE} {c : DevCmdCode} {t : List BYTE} {reads : List (Nat × Nat)}
    (hconv : convertArgs cfg fresh (some c) (s ++ 0 :: t) .new = .ok { biArgs := b, dwRet := errorSuccess, reads }) :
    MeansAsked cfg fresh szDevId c s t ↔ ∃ cmd, SmartDeviceAdb.createCmd c b = .ok cmd ∧
      Shell.read shKind (cmd.buildCmdline szDevId) = some (askedWords cfg szDevId c s) := by
  constructor
  · rintro ⟨r, cmd, hr, -, h⟩
    rw [hconv] at hr
    cases hr
    exact ⟨cmd, h⟩
  · exact fun ⟨cmd, h⟩ => ⟨_, cmd, hconv, rfl, h⟩

/-- The request is read as asked, when the command object holds its words in full. -/
theorem meansAsked_of_line {fresh : Nat → BYTE} {c : DevCmdCode} {t : List BYTE} {reads : List (Nat × Nat)}
    {cmd : Command}
    (hconv : convertArgs cfg fresh (some c) (s ++ 0 :: t) .new = .ok { biArgs := b, dwRet := errorSuccess, reads })
    (hcmd : SmartDeviceAdb.createCmd c b = .ok cmd)
    (hline : cmd.buildCmdline szDevId = printed (line 32 34 (askedPieces cfg szDevId c s)) maxAdbCmdLen) :
    MeansAsked cfg fresh szDevId c s t ↔ (line 32 34 (askedPieces cfg szDevId c s)).length < maxAdbCmdLen ∧
      ∀ p ∈ askedPieces cfg szDevId c s, p.Safe shKind := by
  have hread := read_printed (askedPieces cfg szDevId c s) (List.cons_ne_nil _ _) (forall₂_map_word _)
  rw [← hline] at hread
  have hasked : MeansAsked cfg fresh szDevId c s t ↔
      Shell.read shKind (cmd.buildCmdline szDevId) = some (askedWords cfg szDevId c s) := by
    rw [meansAsked_of_convert hconv]
    constructor
    · rintro ⟨cmd', hcmd', h⟩
      rw [hcmd] at hcmd'
      cases hcmd'
      exact h
    · exact fun h => ⟨cmd, hcmd, h⟩
  rw [hasked, askedWords, hread]
  exact ⟨fun h => ⟨h.1, h.2.2⟩, fun h => ⟨h.1, rfl, h.2⟩⟩

/-- What is read of a field that `strncpy` has filled: its string, or at least the bytes of it that are there. -/
theorem argString_field {o : Nat} {str x : List BYTE} (hd : b.data = 0) (h : b.Holds o (strncpy str maxPath))
    (h0 : 0 ∉ str) (hx : SmartDeviceAdb.argString b o = .ok x) :
    x.take maxPath = str.take maxPath ∧ (str.length < maxPath → x = str) := by
  have hshort : str.length < maxPath → x = str := by
    intro hlt
    rw [argString_of_strncpy hd h h0 hlt] at hx
    exact (Except.ok.inj hx).symm
  refine ⟨?_, hshort⟩
  by_cases hlt : str.length < maxPath
  · rw [hshort hlt]
  · have htake := h.take
    rw [length_strncpy] at htake
    have hfull : strncpy str maxPath = str.take maxPath := by
      unfold strncpy
      dsimp only
      rw [takeWhile_of_free h0, List.length_take_of_le (Nat.le_of_not_lt hlt), Nat.sub_self, List.replicate_zero,
        List.append_nil]
    have hcs : cString (b.mem.drop o) = some x := by
      unfold SmartDeviceAdb.argString at hx
      rw [hd, Nat.zero_add] at hx
      split at hx
      · cases hx
      · rename_i y hy
        cases hx
        exact hy
    obtain ⟨-, t, ht⟩ := cString_eq_some.1 hcs
    -- the first zero stands behind the field
    have hlen : maxPath ≤ x.length := by
      by_contra hlt'
      have hz : 0 ∈ (b.mem.drop o).take maxPath := by
        rw [ht, List.take_append, List.mem_append]
        right
        obtain ⟨k, hk⟩ : ∃ k, maxPath - x.length = k + 1 := ⟨maxPath - x.length - 1, by omega⟩
        rw [hk, List.take_succ_cons]
        exact List.mem_cons_self
      rw [htake, hfull] at hz
      exact h0 (List.mem_of_mem_take hz)
    rw [← hfull, ← htake, ht, List.take_append_of_le_length hlen]

/-- The paths that a push or a pull is made of, whatever is read behind a field without a zero. -/
theorem createCmd_paths {c : DevCmdCode} (hc : c = .pushFile ∨ c = .pullFile) (h : Paths cfg s b) (h0 : 0 ∉ s)
    {cmd : Command} (hcmd : SmartDeviceAdb.createCmd c b = .ok cmd) : ∃ szPathD szFileD,
      cmd = .pushPullFile (printed (cfg.hostFileDir ++ hostFile s) maxPath) szPathD szFileD (c = .pushFile) ∧
      printed (szPathD ++ szFileD) maxPath = printed (cfg.devFileDir ++ deviceFile s) maxPath := by
  have hzero : 0 ∉ cfg.hostFileDir ++ hostFile s := fun hz =>
    (List.mem_append.1 hz).elim cfg.hostFileDir_ok (hostFile_zero h0)
  have h₁ := argString_of_holds h.data h.pathH fun hz => hzero (List.mem_of_mem_take hz)
  obtain ⟨d, f, hd, hf, rfl⟩ : ∃ d f, SmartDeviceAdb.argString b maxPath = .ok d ∧
      SmartDeviceAdb.argString b (maxPath + maxPath) = .ok f ∧
      cmd = .pushPullFile (printed (cfg.hostFileDir ++ hostFile s) maxPath) d f (c = .pushFile) := by
    rcases hc with rfl | rfl
    all_goals
      obtain ⟨p, hp, hcmd⟩ := bind_eq_ok.1 hcmd
      obtain ⟨d, hd, hcmd⟩ := bind_eq_ok.1 hcmd
      obtain ⟨f, hf, hcmd⟩ := bind_eq_ok.1 hcmd
      rw [h₁] at hp
      cases hp
      cases hcmd
      exact ⟨d, f, hd, hf, rfl⟩
  refine ⟨d, f, rfl, ?_⟩
  obtain ⟨hdt, hds⟩ := argString_field h.data h.pathD cfg.devFileDir_ok hd
  obtain ⟨hft, -⟩ := argString_field h.data h.fileD (fun hz => h0 ((deviceFile_suffix s).subset hz)) hf
  have hcut : ∀ {l l' : List BYTE} {n : Nat}, l.take maxPath = l'.take maxPath → n ≤ maxPath →
      l.take n = l'.take n := by
    intro l l' n hl hn
    rw [← Nat.min_eq_left hn, ← List.take_take, hl, List.take_take]
  have hle : maxPath - 1 ≤ maxPath := Nat.sub_le ..
  unfold printed
  by_cases hlt : cfg.devFileDir.length < maxPath
  · rw [hds hlt, List.take_append, List.take_append, hcut hft (Nat.le_trans (Nat.sub_le ..) hle)]
  · have hlong : maxPath ≤ d.length := by
      have hlen := congrArg List.length hdt
      rw [List.length_take, List.length_take] at hlen
      omega
    rw [List.take_append_of_le_length (hle.trans hlong),
      List.take_append_of_le_length (hle.trans (Nat.le_of_not_lt hlt)), hcut hdt hle]

theorem printed_eq_self {str : List BYTE} {size : Nat} (hs : 0 < size) :
    printed str size = str ↔ str.length < size := by
  rw [printed, List.take_eq_self_iff]
  omega

/-- The pieces of a push or a pull of given paths. -/
def pathPieces (szDevId : List BYTE) (c : DevCmdCode) (szPathH fname : List BYTE) : List (Piece BYTE) :=
  [.bare (ascii "adb"), .bare (ascii "-s"), .bare szDevId] ++
    if c = .pushFile then [.bare (ascii "push"), .quoted szPathH, .quoted fname]
    else [.bare (ascii "pull"), .quoted fname, .quoted szPathH]

theorem askedPieces_paths {c : DevCmdCode} (hc : c = .pushFile ∨ c = .pullFile) : askedPieces cfg szDevId c s =
    pathPieces szDevId c (cfg.hostFileDir ++ hostFile s) (cfg.devFileDir ++ deviceFile s) := by
  rcases hc with rfl | rfl <;> rfl

theorem buildCmdline_paths {c : DevCmdCode} (hc : c = .pushFile ∨ c = .pullFile) (szPathH szPathD szFileD : List BYTE) :
    (Command.pushPullFile szPathH szPathD szFileD (c = .pushFile)).buildCmdline szDevId =
      printed (line 32 34 (pathPieces szDevId c szPathH (printed (szPathD ++ szFileD) maxPath))) maxAdbCmdLen := by
  rcases hc with rfl | rfl
  all_goals
    unfold Command.buildCmdline
    simp only [decide_true, decide_false, reduceCtorEq, Bool.false_eq_true, ↓reduceIte, pathPieces, List.append_assoc]
    simp [line, Piece.text, ascii]

theorem pathPieces_words {c : DevCmdCode} {szPathH szPathH' fname fname' : List BYTE} :
    (pathPieces szDevId c szPathH fname).map Piece.word = (pathPieces szDevId c szPathH' fname').map Piece.word ↔
      szPathH = szPathH' ∧ fname = fname' := by
  unfold pathPieces
  split
  · simp [Piece.word]
  · simp [Piece.word, and_comm]

theorem pathPieces_cut (c : DevCmdCode) (szPathH fname : List BYTE) (n m : Nat) : List.Forall₂ (fun p w => p.word <+: w)
    (pathPieces szDevId c (szPathH.take n) (fname.take m)) ((pathPieces szDevId c szPathH fname).map Piece.word) := by
  have hh := List.take_prefix n szPathH
  have hf := List.take_prefix m fname
  unfold pathPieces
  split
  · simpa [Piece.word] using ⟨hh, hf⟩
  · simpa [Piece.word] using ⟨hf, hh⟩

/-- The pieces of a deletion. -/
def delPieces (szDevId szFileName : List BYTE) : List (Piece BYTE) :=
  [.bare (ascii "adb"), .bare (ascii "-s"), .bare szDevId, .bare (ascii "shell"), .bare (ascii "rm"),
    .quoted szFileName]

theorem meansAsked_pushPull {fresh : Nat → BYTE} {c : DevCmdCode} (hc : c = .pushFile ∨ c = .pullFile) (h0 : 0 ∉ s)
    (t : List BYTE) : MeansAsked cfg fresh szDevId c s t ↔ Plain cfg szDevId c s := by
  obtain ⟨b, reads, hconv, -, hpaths⟩ := convertArgs_pushPull cfg fresh h0 t hc
  have hfit : PathsFit cfg s c ↔ (cfg.hostFileDir ++ hostFile s).length < maxPath ∧
      (cfg.devFileDir ++ deviceFile s).length < maxPath := by
    rcases hc with rfl | rfl <;> exact Iff.rfl
  constructor
  · rw [meansAsked_of_convert hconv]
    rintro ⟨cmd, hcmd, hread⟩
    obtain ⟨d, f, rfl, hprint⟩ := createCmd_paths hc hpaths h0 hcmd
    rw [buildCmdline_paths hc, hprint, askedWords, askedPieces_paths hc] at hread
    obtain ⟨hlen, hmap, hsafe⟩ :=
      (read_printed (pathPieces ..) (List.cons_ne_nil _ _) (pathPieces_cut c _ _ _ _)).1 hread
    have hboth := pathPieces_words.1 hmap
    have hboth' : printed _ maxPath = _ ∧ printed _ maxPath = _ := hboth
    rw [printed_eq_self (by decide), printed_eq_self (by decide)] at hboth'
    rw [hboth.1, hboth.2, ← askedPieces_paths hc] at hlen hsafe
    exact ⟨hfit.2 hboth', hlen, hsafe⟩
  · rintro ⟨hp, hlen, hsafe⟩
    obtain ⟨hH, hD⟩ := hfit.1 hp
    have hD' := hD
    rw [List.length_append] at hD'
    have hcmd := hpaths.createCmd hc h0 (by omega) (by omega)
    refine (meansAsked_of_line hconv hcmd ?_).2 ⟨hlen, hsafe⟩
    rw [buildCmdline_paths hc, askedPieces_paths hc, (printed_eq_self (by decide)).2 hD]
    exact congrArg (fun h => printed (line 32 34 (pathPieces szDevId c h _)) maxAdbCmdLen)
      ((printed_eq_self (by decide)).2 hH)

theorem delPieces_cut (str : List BYTE) (n : Nat) : List.Forall₂ (fun p w => p.word <+: w)
    (delPieces szDevId (str.take n)) ((delPieces szDevId str).map Piece.word) := by
  simpa [delPieces, Piece.word] using List.take_prefix n str

theorem meansAsked_del {fresh : Nat → BYTE} (h0 : 0 ∉ s) (t : List BYTE) :
    MeansAsked cfg fresh szDevId .delFile s t ↔ Plain cfg szDevId .delFile s := by
  obtain ⟨b, hconv, hd, -, hs⟩ := convertArgs_del cfg fresh h0 t
  have hz : 0 ∉ printed (cfg.devFileDir ++ s) maxPath := fun hz =>
    (List.mem_append.1 (List.mem_of_mem_take hz)).elim cfg.devFileDir_ok h0
  have hcmd : SmartDeviceAdb.createCmd .delFile b = .ok (.delFile (printed (cfg.devFileDir ++ s) maxPath)) := by
    unfold SmartDeviceAdb.createCmd
    dsimp only
    rw [argString_of_holds hd hs hz]
    rfl
  have hline : ∀ f : List BYTE, (Command.delFile f).buildCmdline szDevId =
      printed (line 32 34 (delPieces szDevId f)) maxAdbCmdLen := by
    intro f
    simp [Command.buildCmdline, delPieces, line, Piece.text, ascii]
  constructor
  · rw [meansAsked_of_convert hconv]
    rintro ⟨cmd, hcmd', hread⟩
    rw [hcmd] at hcmd'
    cases hcmd'
    rw [hline] at hread
    obtain ⟨hlen, hmap, hsafe⟩ := (read_printed (delPieces ..) (List.cons_ne_nil _ _) (delPieces_cut _ _)).1 hread
    have hfull : (cfg.devFileDir ++ s).take (maxPath - 1) = cfg.devFileDir ++ s := by
      have hlast := congrArg List.getLast? hmap
      simpa only [delPieces, List.map_cons, List.map_nil, List.getLast?_cons_cons, List.getLast?_singleton,
        Option.some.injEq, Piece.word] using hlast
    rw [hfull] at hlen hsafe
    exact ⟨(printed_eq_self (by decide)).1 hfull, hlen, hsafe⟩
  · rintro ⟨hp, hlen, hsafe⟩
    refine (meansAsked_of_line hconv hcmd ?_).2 ⟨hlen, hsafe⟩
    rw [hline, (printed_eq_self (by decide)).2 hp]
    rfl

theorem plain_iff {c : DevCmdCode} (hfit : PathsFit cfg s c) : Plain cfg szDevId c s ↔
    (line 32 34 (askedPieces cfg szDevId c s)).length < maxAdbCmdLen ∧
      ∀ p ∈ askedPieces cfg szDevId c s, p.Safe shKind :=
  ⟨fun h => ⟨h.fits, h.safe⟩, fun h => ⟨hfit, h.1, h.2⟩⟩

theorem not_meansAsked_of_error {fresh : Nat → BYTE} {c : DevCmdCode} {t : List BYTE}
    (h : ∃ e, convertArgs cfg fresh (some c) (s ++ 0 :: t) .new = .error e) : ¬ MeansAsked cfg fresh szDevId c s t := by
  obtain ⟨e, he⟩ := h
  rintro ⟨r, cmd, hr, -⟩
  rw [he] at hr
  cases hr

/-- The pieces of an installation. -/
def installPieces (szDevId szApkPath : List BYTE) : List (Piece BYTE) :=
  [.bare (ascii "adb"), .bare (ascii "-s"), .bare szDevId, .bare (ascii "install"), .bare (ascii "-r"),
    .bare szApkPath]

theorem installPieces_cut (str : List BYTE) (n : Nat) : List.Forall₂ (fun p w => p.word <+: w)
    (installPieces szDevId (str.take n)) ((installPieces szDevId str).map Piece.word) := by
  simpa [installPieces, Piece.word] using List.take_prefix n str

theorem installPieces_words {szApkPath szApkPath' : List BYTE} :
    (installPieces szDevId szApkPath).map Piece.word = (installPieces szDevId szApkPath').map Piece.word ↔
      szApkPath = szApkPath' := by
  simp [installPieces, Piece.word]

theorem buildCmdline_install (szApkPath : List BYTE) : (Command.installApk szApkPath).buildCmdline szDevId =
    printed (line 32 34 (installPieces szDevId szApkPath)) maxAdbCmdLen := by
  simp [Command.buildCmdline, installPieces, line, Piece.text, ascii]

theorem askedPieces_install {c : DevCmdCode} (hc : c = .installApp ∨ c = .installInfoview) :
    askedPieces cfg szDevId c s = installPieces szDevId (cfg.appDir ++ s) := by
  rcases hc with rfl | rfl <;> rfl

theorem createCmd_install {c : DevCmdCode} (hc : c = .installApp ∨ c = .installInfoview) :
    SmartDeviceAdb.createCmd c b = SmartDeviceAdb.argString b 4 >>= fun str => .ok (.installApk str) := by
  rcases hc with rfl | rfl <;> rfl

/-- A path that fits in the line has a length that a `DWORD` holds. -/
theorem Plain.length_install {c : DevCmdCode} (hc : c = .installApp ∨ c = .installInfoview)
    (hp : Plain cfg szDevId c s) : cfg.appDir.length + s.length < 500 := by
  have hword := Shell.length_word_le_line 32 34
    (show Piece.bare (cfg.appDir ++ s) ∈ askedPieces cfg szDevId c s by simp [askedPieces_install hc, installPieces])
  rw [← List.length_append]
  exact Nat.lt_of_le_of_lt hword hp.fits

/-- An installation of what the arguments hold of the path. -/
theorem meansAsked_installApk {fresh : Nat → BYTE} {c : DevCmdCode} (hc : c = .installApp ∨ c = .installInfoview)
    {t : List BYTE} {reads : List (Nat × Nat)} {n : Nat}
    (hconv : convertArgs cfg fresh (some c) (s ++ 0 :: t) .new = .ok { biArgs := b, dwRet := errorSuccess, reads })
    (hcmd : SmartDeviceAdb.createCmd c b = .ok (.installApk ((cfg.appDir ++ s).take n)))
    (hfull : Plain cfg szDevId c s → (cfg.appDir ++ s).take n = cfg.appDir ++ s) :
    MeansAsked cfg fresh szDevId c s t ↔ Plain cfg szDevId c s := by
  have hpieces : askedPieces cfg szDevId c s = installPieces szDevId (cfg.appDir ++ s) := askedPieces_install hc
  constructor
  · intro hm
    obtain ⟨cmd, hcmd', hread⟩ := (meansAsked_of_convert hconv).1 hm
    rw [hcmd] at hcmd'
    cases hcmd'
    rw [buildCmdline_install, askedWords, hpieces] at hread
    obtain ⟨hl, hmap, hsafe⟩ :=
      (read_printed (installPieces ..) (List.cons_ne_nil _ _) (installPieces_cut _ _)).1 hread
    rw [installPieces_words.1 hmap, ← hpieces] at hl hsafe
    exact ⟨by rcases hc with rfl | rfl <;> trivial, hl, hsafe⟩
  · intro hp
    refine (meansAsked_of_line hconv hcmd ?_).2 ⟨hp.fits, hp.safe⟩
    rw [buildCmdline_install, hfull hp, hpieces]

/-- The size is a `DWORD` sum: 0 where nothing is stored behind it and the command reads past it, and one for which the
buffer is not large enough. -/
theorem meansAsked_install {fresh : Nat → BYTE} {c : DevCmdCode} (hc : c = .installApp ∨ c = .installInfoview)
    (h0 : 0 ∉ s) (t : List BYTE) : MeansAsked cfg fresh szDevId c s t ↔ Plain cfg szDevId c s := by
  obtain ⟨dwLen, hdw⟩ : ∃ dwLen : DWORD, .ofNat (cfg.appDir.length + s.length + 1) = dwLen := ⟨_, rfl⟩
  have hval : (cfg.appDir.length + s.length + 1) % 2 ^ 32 = dwLen.toNat := hdw ▸ (UInt32.toNat_ofNat' ..).symm
  have hconv := convertArgs_install cfg fresh h0 t hc hdw
  have hz : 0 ∉ cfg.appDir ++ s := fun hz => (List.mem_append.1 hz).elim cfg.appDir_ok h0
  obtain ⟨hlen, -⟩ := printed_install (cfg.appDir ++ s) dwLen
  by_cases hsize : 4 + dwLen.toNat < 2 ^ 32
  · obtain ⟨b, hb, hs⟩ := putSized_ok dwLen _ fresh hsize hlen
    rw [hb] at hconv
    by_cases hzero : dwLen = 0
    · have hover : SmartDeviceAdb.argString b 4 = .error .overread := by
        have hend : b.mem.drop 4 = [] := List.drop_eq_nil_of_le (by
          have := hs.room
          rw [hzero] at this
          exact Nat.le_of_eq this)
        rw [SmartDeviceAdb.argString, hs.data, Nat.zero_add, hend]
        rfl
      refine iff_of_false (fun hm => ?_) fun hp => ?_
      · obtain ⟨cmd, hcmd, -⟩ := (meansAsked_of_convert hconv).1 hm
        rw [createCmd_install hc, hover] at hcmd
        cases hcmd
      · have := hp.length_install hc
        rw [hzero, show (0 : DWORD).toNat = 0 from rfl] at hval
        omega
    · have hstr := hs.str
      rw [if_neg hzero] at hstr
      have hcmd : SmartDeviceAdb.createCmd c b = .ok (.installApk ((cfg.appDir ++ s).take (dwLen.toNat - 1))) := by
        rw [createCmd_install hc, argString_of_holds hs.data hstr fun h => hz (List.mem_of_mem_take h)]
        rfl
      refine meansAsked_installApk hc hconv hcmd fun hp => ?_
      have := hp.length_install hc
      rw [List.take_eq_self_iff, List.length_append]
      omega
  · obtain ⟨e, he⟩ := putSized_fails dwLen (if dwLen = 0 then [] else snprintf (cfg.appDir ++ s) dwLen.toNat) fresh
      (.inl (Nat.le_of_not_lt hsize))
    rw [he] at hconv
    refine iff_of_false (not_meansAsked_of_error ⟨e, hconv⟩) fun hp => ?_
    have := hp.length_install hc
    omega

theorem meansAsked_uninstall {fresh : Nat → BYTE} (h0 : 0 ∉ s) (t : List BYTE) :
    MeansAsked cfg fresh szDevId .uninstallApp s t ↔ Plain cfg szDevId .uninstallApp s := by
  rcases convertArgs_uninstall_cases cfg fresh t h0 with ⟨-, b, hconv, hs⟩ | ⟨hsize, he⟩
  · have hcmd : SmartDeviceAdb.createCmd .uninstallApp b = .ok (.uninstallApk s) := by
      unfold SmartDeviceAdb.createCmd
      dsimp only
      rw [argString_of_holds hs.data hs.str h0]
      rfl
    rw [plain_iff (show PathsFit cfg s .uninstallApp from trivial)]
    apply meansAsked_of_line hconv hcmd
    simp [Command.buildCmdline, askedPieces, line, Piece.text, ascii]
  · refine iff_of_false (not_meansAsked_of_error he) fun hp => ?_
    have hword := Shell.length_word_le_line 32 34
      (show Piece.bare s ∈ askedPieces cfg szDevId .uninstallApp s by simp [askedPieces])
    have hlt : s.length < 500 := Nat.lt_of_le_of_lt hword hp.fits
    omega

end

/-- **The shell reads what was asked exactly for the requests that the templates are right for.** -/
theorem meansAsked_iff (cfg : ConfigCenter) (fresh : Nat → BYTE) (szDevId : List BYTE) {cmdCode : DevCmdCode}
    (hc : takesText cmdCode = true) {s : List BYTE} (h0 : 0 ∉ s) (t : List BYTE) :
    MeansAsked cfg fresh szDevId cmdCode s t ↔ Plain cfg szDevId cmdCode s := by
  cases cmdCode with
  | installApp => exact meansAsked_install (.inl rfl) h0 t
  | installInfoview => exact meansAsked_install (.inr rfl) h0 t
  | uninstallApp => exact meansAsked_uninstall h0 t
  | pushFile => exact meansAsked_pushPull (.inl rfl) h0 t
  | pullFile => exact meansAsked_pushPull (.inr rfl) h0 t
  | delFile => exact meansAsked_del h0 t
  | labelShow => cases hc
  | screenCap => cases hc
  | getSysinfo => cases hc
  | getBattinfo => cases hc
  | getDiskinfo => cases hc
  | getApplist => cases hc
  | findMe => cases hc

/-- A picture with a blank in its name, between the quotes of a push. -/
theorem meansAsked_push : MeansAsked noDirs (fun _ => 1) (ascii "8A9B") .pushFile (ascii "/tmp/a b.png,c.png") [] :=
  (meansAsked_iff noDirs (fun _ => 1) (ascii "8A9B") (by decide) (by decide) []).2
    ⟨⟨by decide, by decide⟩, by decide, by decide⟩

/-- The package of an installation stands without quotes: `sh` splits its path at the blank. -/
theorem blankPath_not_meansAsked :
    ¬ MeansAsked noDirs (fun _ => 1) (ascii "8A9B") .installApp (ascii "/tmp/my app.apk") [] := by
  have hconv := convertArgs_install noDirs (fun _ => 1) (show 0 ∉ ascii "/tmp/my app.apk" by decide) []
    (c := .installApp) (.inl rfl) rfl
  obtain ⟨b, hb, hs⟩ := putSized_ok 16 (ascii "/tmp/my app.apk" ++ [0]) (fun _ => 1) (by decide) (by decide)
  change convertArgs .. = (putSized .new 16 (ascii "/tmp/my app.apk" ++ [0]) _).map _ at hconv
  rw [hb] at hconv
  rw [meansAsked_of_convert hconv]
  rintro ⟨cmd, hcmd, hread⟩
  have hcmd' : SmartDeviceAdb.createCmd .installApp b = .ok (.installApk (ascii "/tmp/my app.apk")) := by
    unfold SmartDeviceAdb.createCmd
    dsimp only
    rw [argString_of_holds hs.data hs.str (by decide)]
    rfl
  rw [hcmd'] at hcmd
  cases hcmd
  revert hread
  decide

end CmdLine

end DevMgr
