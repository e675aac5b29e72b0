import OpenVpn.Base.Run
import OpenVpn.Util.Buffer

/-!
# Commands of the management interface (`manage.c`)

The bytes that come from a management client are collected in a buffer of 1024 bytes, and
the lines in it are run as commands.

* `commandLineAdd`, `commandLineGet`, `commandLineNext` — the buffer.
* `manRead` — one read: the bytes are added, then every line is dispatched.
* `commandLines` — what should be run, from the stream as a whole.
* `commands_are_lines` — every run in which the buffer always takes what is read
  dispatches exactly those lines, however the stream was cut.
* `long_line_runs_its_end` — the end of a line that is too long is run as a command.
-/

namespace OpenVpn

open Base List Nat Prod

/-! ## The buffer -/

def NEWLINE : UInt8 := 10

/-- The bytes that are not removed: `CC_PRINT` and `CC_NEWLINE`. -/
def commandChar (c : UInt8) : Bool := c != 0 && (ccPrint c || c == NEWLINE)

/-- `struct command_line`: two buffers of `size` bytes. -/
structure CommandLine (size : Nat) where
  buf : Bytes
  residual : Bytes
  buf_le : buf.length ≤ size
  residual_le : residual.length ≤ size

variable {size : Nat}

/-- `command_line_new`, `command_line_reset`. -/
def commandLineNew (size : Nat) : CommandLine size := ⟨[], [], zero_le _, zero_le _⟩

/-- One byte of `command_line_add`. A buffer that is full is cleared, and the byte is lost. -/
def CommandLine.addByte (cl : CommandLine size) (c : UInt8) : CommandLine size :=
  if commandChar c then
    if h : cl.buf.length < size then
      { cl with buf := cl.buf ++ [c], buf_le := by rw [length_append]; exact h }
    else { cl with buf := [], buf_le := zero_le _ }
  else cl

def commandLineAdd (cl : CommandLine size) (buf : Bytes) : CommandLine size :=
  buf.foldl CommandLine.addByte cl

/-- `buf_substring_len`: the length of the contents up to the delimiter and with it. -/
def bufSubstringLen (buf : Bytes) (delim : UInt8) : Option Nat :=
  (buf.findIdx? (· == delim)).map (· + 1)

theorem line_length_le {cl : CommandLine size} {i : Nat} :
    (cl.buf.take i).dropLast.length ≤ size := by
  have hle := cl.buf_le
  rw [length_dropLast, length_take]
  omega

theorem excess_length_le {cl : CommandLine size} {i : Nat} : (cl.buf.drop i).length ≤ size := by
  have hle := cl.buf_le
  rw [length_drop]
  omega

/-- `command_line_get`: the first line, and the buffers with what comes after it in the
residual one. -/
def commandLineGet (cl : CommandLine size) : Option (Bytes × CommandLine size) :=
  (bufSubstringLen cl.buf NEWLINE).map fun i =>
    -- `buf_copy_excess`, `buf_chomp`
    let line := (cl.buf.take i).dropLast
    (line, ⟨line, cl.buf.drop i, line_length_le, excess_length_le⟩)

def commandLineNext (cl : CommandLine size) : CommandLine size :=
  { buf := cl.residual, residual := [], buf_le := cl.residual_le, residual_le := zero_le _ }

/-! ## Dispatching -/

/-- `struct man_connection`, with the other state of the management interface in
`persist`. -/
structure ManConnection (π : Type) where
  inExtra : Option (List Bytes)
  halt : Bool
  persist : π

/-- The commands. -/
structure ManCommands (π : Type) where
  manProcessCommand : ManConnection π → Bytes → ManConnection π
  inExtraDispatch : ManConnection π → ManConnection π

variable {π : Type} (cmds : ManCommands π)

/-- What is done with a line: it belongs to the text of a command that is being entered, or
is a command. -/
def manDispatch (man : ManConnection π) (line : Bytes) : ManConnection π :=
  match man.inExtra with
  | some extra =>
    -- "END"
    if line = [69, 78, 68] then cmds.inExtraDispatch man
    else { man with inExtra := some (extra ++ [line]) }
  | none => cmds.manProcessCommand man line

theorem commandLineGet_cases {cl : CommandLine size} :
    (commandLineGet cl = none ∧ NEWLINE ∉ cl.buf) ∨
      ∃ line cl', commandLineGet cl = some (line, cl') ∧ NEWLINE ∉ line ∧
        cl.buf = line ++ NEWLINE :: (commandLineNext cl').buf ∧ cl'.buf = line := by
  cases hidx : cl.buf.findIdx? (· == NEWLINE) with
  | none =>
    refine .inl ⟨by rw [commandLineGet, bufSubstringLen, hidx]; rfl, fun hmem => ?_⟩
    have hall := findIdx?_eq_none_iff.mp hidx NEWLINE hmem
    simp at hall
  | some i =>
    obtain ⟨hi, hnl, hbef⟩ := findIdx?_eq_some_iff_getElem.mp hidx
    have hline : (cl.buf.take (i + 1)).dropLast = cl.buf.take i := by
      rw [take_succ_eq_append_getElem hi, dropLast_concat]
    have hget : commandLineGet cl = some ((cl.buf.take (i + 1)).dropLast,
        ⟨(cl.buf.take (i + 1)).dropLast, cl.buf.drop (i + 1), line_length_le,
          excess_length_le⟩) := by
      rw [commandLineGet, bufSubstringLen, hidx]
      rfl
    refine .inr ⟨_, _, hget, ?_, ?_, rfl⟩
    · rw [hline]
      intro hmem
      obtain ⟨j, hj, hget⟩ := getElem_of_mem hmem
      rw [length_take] at hj
      have hne := hbef j (by omega)
      rw [getElem_take] at hget
      simp [hget] at hne
    · have hcut := take_append_drop i cl.buf
      rw [drop_eq_getElem_cons hi, beq_iff_eq.mp hnl, ← hline] at hcut
      exact hcut.symm

variable {cl : CommandLine size} {line : Bytes}

theorem commandLineGet_line {cl' : CommandLine size} (h : commandLineGet cl = some (line, cl')) :
    NEWLINE ∉ line ∧ cl.buf = line ++ NEWLINE :: (commandLineNext cl').buf ∧ cl'.buf = line := by
  rcases commandLineGet_cases with ⟨hnone, _⟩ | ⟨line', cl'', hsome, hline⟩
  · cases hnone.symm.trans h
  · cases hsome.symm.trans h
    exact hline

theorem commandLineGet_lt {cl' : CommandLine size} (h : commandLineGet cl = some (line, cl')) :
    (commandLineNext cl').buf.length < cl.buf.length := by
  rw [(commandLineGet_line h).2.1, length_append, length_cons]
  omega

/-- The loop of `man_read`, with the lines it dispatched. -/
def manReadLoop (man : ManConnection π) (cl : CommandLine size) :
    ManConnection π × CommandLine size × List Bytes :=
  match _hget : commandLineGet cl with
  | none => (man, cl, [])
  | some (line, cl') =>
    let man := manDispatch cmds man line
    if man.halt then (man, cl', [line])
    else
      let r := manReadLoop man (commandLineNext cl')
      (r.1, r.2.1, line :: r.2.2)
  termination_by cl.buf.length
  decreasing_by exact commandLineGet_lt _hget

/-- The connection of a client, with its buffer. -/
structure ManSession (π : Type) where
  man : ManConnection π
  cl : CommandLine 1024

/-- `man_connection_init` and a client that connects. -/
def ManSession.start (man : ManConnection π) : ManSession π := ⟨man, commandLineNew 1024⟩

/-- `man_read`, when `buf` was received. A connection that is to be closed is not read any
more. -/
def manRead (s : ManSession π) (buf : Bytes) : Option (ManSession π × List Bytes) :=
  if s.man.halt then some (s, [])
  else
    let r := manReadLoop cmds s.man (commandLineAdd s.cl buf)
    some (⟨r.1, r.2.1⟩, r.2.2)

/-! ## What should be run -/

/-- The line fits the buffer with its newline. -/
def lineFits (size : Nat) (line : Bytes) : Bool := decide (line.length < size)

/-- The lines of the bytes that are not removed, except those that do not fit. -/
def commandLines (size : Nat) (stream : Bytes) : List Bytes :=
  (linesFrom NEWLINE [] (stream.filter commandChar)).1.filter (lineFits size)

/-- Lines are dispatched in order, until one of them ends the connection. -/
def dispatchAll (man : ManConnection π) : List Bytes → ManConnection π × List Bytes
  | [] => (man, [])
  | line :: lines =>
    let man := manDispatch cmds man line
    if man.halt then (man, [line])
    else
      let r := dispatchAll man lines
      (r.1, line :: r.2)

/-- The buffer takes what is read: it is never full, except when a line comes to its end that
fills it alone. -/
def CommandLine.Takes (cl : CommandLine size) : Bytes → Prop
  | [] => True
  | c :: buf =>
    (commandChar c = true → cl.buf.length < size ∨ c = NEWLINE ∧ NEWLINE ∉ cl.buf) ∧
      (cl.addByte c).Takes buf

instance CommandLine.decidableTakes (cl : CommandLine size) : ∀ buf, Decidable (cl.Takes buf)
  | [] => isTrue trivial
  | c :: buf =>
    have := (cl.addByte c).decidableTakes buf
    inferInstanceAs (Decidable ((_ → _ ∨ _) ∧ _))

def ReadTakes (s : ManSession π) (buf : Bytes) : Prop := s.man.halt = true ∨ s.cl.Takes buf

instance (s : ManSession π) (buf : Bytes) : Decidable (ReadTakes s buf) :=
  inferInstanceAs (Decidable (_ ∨ _))

/-! ## Adding -/

variable {c : UInt8}

theorem addByte_removed (cl : CommandLine size) (hc : commandChar c = false) :
    cl.addByte c = cl := by
  rw [CommandLine.addByte, hc]
  rfl

theorem addByte_fits (cl : CommandLine size) (hc : commandChar c = true)
    (hfits : cl.buf.length < size) : (cl.addByte c).buf = cl.buf ++ [c] := by
  rw [CommandLine.addByte, if_pos hc, dif_pos hfits]

theorem addByte_full (cl : CommandLine size) (hc : commandChar c = true)
    (hfull : ¬cl.buf.length < size) : (cl.addByte c).buf = [] := by
  rw [CommandLine.addByte, if_pos hc, dif_neg hfull]

theorem linesFrom_left_length (p s : Bytes) :
    (linesFrom NEWLINE p s).2.length ≤ p.length + s.length := by
  induction s generalizing p with
  | nil => exact le_refl _
  | cons c s ih =>
    rw [linesFrom, length_cons]
    split
    · have hle := ih []
      rw [length_nil] at hle
      show (linesFrom NEWLINE [] s).2.length ≤ _
      omega
    · have hle := ih (p ++ [c])
      rw [length_append, length_singleton] at hle
      omega

/-- **Adding.** The buffer holds the lines and the beginning of a line that have come, without the
lines that do not fit. -/
theorem commandLineAdd_spec (cl : CommandLine size) (buf : Bytes) (htakes : cl.Takes buf) :
    let held := linesFrom NEWLINE [] cl.buf
    let r := linesFrom NEWLINE held.2 (buf.filter commandChar)
    linesFrom NEWLINE [] (commandLineAdd cl buf).buf =
      (held.1 ++ r.1.filter (lineFits size), r.2) := by
  induction buf generalizing cl with
  | nil =>
    intro held r
    show linesFrom NEWLINE [] cl.buf = (held.1 ++ [], held.2)
    rw [append_nil]
  | cons c buf ih =>
    obtain ⟨hbyte, hrest⟩ := htakes
    have hstep := ih (cl.addByte c) hrest
    show linesFrom NEWLINE [] (commandLineAdd (cl.addByte c) buf).buf = _
    rw [hstep]
    cases hc : commandChar c with
    | false => rw [addByte_removed cl hc, filter_cons_of_neg (by rw [hc]; simp)]
    | true =>
      rw [filter_cons_of_pos hc, linesFrom]
      by_cases hfits : cl.buf.length < size
      · rw [addByte_fits cl hc hfits, linesFrom_append]
        have hlen := linesFrom_left_length [] cl.buf
        rw [length_nil, zero_add] at hlen
        by_cases hnl : c = NEWLINE
        · have hsh : (linesFrom NEWLINE [] cl.buf).2.length < size := by omega
          simp [linesFrom, lineFits, hnl, hsh]
        · simp [linesFrom, hnl]
      · -- the line that ends fills the buffer, and is dropped
        obtain ⟨hnl, halone⟩ := (hbyte hc).resolve_left hfits
        rw [addByte_full cl hc hfits, linesFrom_of_not_mem halone]
        simp [linesFrom, lineFits, hnl, hfits]

/-! ## Dispatching the lines of the buffer -/

/-- **The loop.** The lines of the buffer are dispatched, and what is left stays in it. -/
theorem manReadLoop_spec (man : ManConnection π) (cl : CommandLine size) :
    let r := manReadLoop cmds man cl
    let held := linesFrom NEWLINE [] cl.buf
    (r.1, r.2.2) = dispatchAll cmds man held.1 ∧ (r.1.halt = false → r.2.1.buf = held.2) := by
  fun_induction manReadLoop cmds man cl with
  | case1 man cl hget =>
    rcases commandLineGet_cases with ⟨_, habs⟩ | ⟨_, _, hsome, _⟩
    · rw [linesFrom_of_not_mem habs]
      exact ⟨rfl, fun _ => rfl⟩
    · cases hget.symm.trans hsome
  | case2 man cl line cl' hget man' hhalt =>
    obtain ⟨hline, hbuf, _⟩ := commandLineGet_line hget
    rw [hbuf, linesFrom_line hline]
    refine ⟨?_, fun hopen => ?_⟩
    · rw [dispatchAll, if_pos hhalt]
    · rw [hhalt] at hopen
      cases hopen
  | case3 man cl line cl' hget man' hhalt r ih =>
    obtain ⟨hline, hbuf, _⟩ := commandLineGet_line hget
    obtain ⟨hdisp, hleft⟩ := ih
    rw [hbuf, linesFrom_line hline]
    refine ⟨?_, hleft⟩
    rw [dispatchAll, if_neg hhalt]
    exact congrArg (fun d => (d.1, line :: d.2)) hdisp

theorem dispatchAll_append {man : ManConnection π} (hopen : man.halt = false) (l l' : List Bytes) :
    dispatchAll cmds man (l ++ l') =
      let r := dispatchAll cmds man l
      if r.1.halt then r
      else
        let r' := dispatchAll cmds r.1 l'
        (r'.1, r.2 ++ r'.2) := by
  induction l generalizing man with
  | nil => simp [dispatchAll, hopen]
  | cons line l ih =>
    simp only [cons_append, dispatchAll]
    cases hhalt : (manDispatch cmds man line).halt with
    | true => simp [hhalt]
    | false =>
      simp only [Bool.false_eq_true, if_false, ih hhalt]
      split <;> rfl

theorem dispatchAll_prefix (man : ManConnection π) (l : List Bytes) :
    (dispatchAll cmds man l).2 <+: l := by
  induction l generalizing man with
  | nil => exact prefix_rfl
  | cons line l ih =>
    rw [dispatchAll]
    split
    · exact ⟨l, rfl⟩
    · exact prefix_cons_inj line |>.mpr (ih _)

/-! ## Runs -/

variable {s : ManSession π}

theorem manRead_of_open (hopen : s.man.halt = false) (buf : Bytes) :
    manRead cmds s buf =
      let r := manReadLoop cmds s.man (commandLineAdd s.cl buf)
      some (⟨r.1, r.2.1⟩, r.2.2) := by
  rw [manRead, hopen]
  rfl

/-- **One read.** The lines that end in it are dispatched. -/
theorem manRead_spec {buf : Bytes} (hopen : s.man.halt = false) (hheld : NEWLINE ∉ s.cl.buf)
    (htakes : s.cl.Takes buf) :
    let r := linesFrom NEWLINE s.cl.buf (buf.filter commandChar)
    let short := r.1.filter (lineFits 1024)
    ∃ s', manRead cmds s buf = some (s', (dispatchAll cmds s.man short).2) ∧
      s'.man = (dispatchAll cmds s.man short).1 ∧
      (s'.man.halt = false → s'.cl.buf = r.2) := by
  intro r short
  have hadd := commandLineAdd_spec s.cl buf htakes
  rw [linesFrom_of_not_mem hheld] at hadd
  obtain ⟨hdisp, hleft⟩ :=
    manReadLoop_spec cmds s.man (commandLineAdd s.cl buf)
  rw [hadd] at hdisp hleft
  refine ⟨⟨_, _⟩, ?_, congrArg fst hdisp, hleft⟩
  rw [manRead_of_open cmds hopen]
  exact congrArg (fun d => some (_, d)) (congrArg snd hdisp)

theorem manRead_run_halted (chunks : List Bytes) (hhalt : s.man.halt = true) :
    ∃ outs, run (manRead cmds) s chunks = some (s, outs) ∧ outs.flatten = [] := by
  induction chunks with
  | nil => exact ⟨[], rfl, rfl⟩
  | cons buf chunks ih =>
    obtain ⟨outs, hrun, hemp⟩ := ih
    have hread : manRead cmds s buf = some (s, []) := by rw [manRead, if_pos hhalt]
    exact ⟨_, run_cons hread hrun, hemp⟩

/-- **Every run** dispatches the lines of the stream that fit. -/
theorem manRead_run (chunks : List Bytes) (hopen : s.man.halt = false) (hheld : NEWLINE ∉ s.cl.buf)
    (hg : RunGuard (manRead cmds) ReadTakes s chunks) :
    let r := linesFrom NEWLINE s.cl.buf (chunks.flatten.filter commandChar)
    ∃ s' outs, run (manRead cmds) s chunks = some (s', outs) ∧
      (s'.man, outs.flatten) = dispatchAll cmds s.man (r.1.filter (lineFits 1024)) ∧
      (s'.man.halt = false → s'.cl.buf = r.2) := by
  induction chunks generalizing s with
  | nil => exact ⟨s, [], rfl, rfl, fun _ => rfl⟩
  | cons buf chunks ih =>
    have htakes : s.cl.Takes buf := hg.1.resolve_left (by rw [hopen]; exact Bool.false_ne_true)
    obtain ⟨s1, hread, hman, hleft⟩ := manRead_spec cmds hopen hheld htakes
    rw [flatten_cons, filter_append, linesFrom_append]
    simp only [filter_append]
    rw [dispatchAll_append cmds hopen]
    simp only [← hman]
    cases hhalt : s1.man.halt with
    | true =>
      obtain ⟨outs, hrun, hemp⟩ := manRead_run_halted cmds chunks hhalt
      refine ⟨s1, _, run_cons hread hrun, ?_, fun hopen1 => ?_⟩
      · rw [flatten_cons, hemp, append_nil, if_pos rfl, hman]
      · rw [hhalt] at hopen1
        cases hopen1
    | false =>
      have hbuf := hleft hhalt
      have hheld1 : NEWLINE ∉ s1.cl.buf := by
        rw [hbuf]
        exact not_mem_linesFrom hheld _
      obtain ⟨s', outs, hrun, hdisp, hleft'⟩ := ih hhalt hheld1 (hg.2 s1 _ hread)
      rw [hbuf] at hdisp hleft'
      refine ⟨s', _, run_cons hread hrun, ?_, hleft'⟩
      rw [if_neg Bool.false_ne_true, ← hdisp, flatten_cons]

/-- **Commands are lines.** However the stream of a client is cut into reads, if the buffer always
takes what is read, the lines that are dispatched are those of the stream, without the bytes that
do not print and without the lines that are too long, up to the one that ends the connection. -/
theorem commands_are_lines {man : ManConnection π} (hopen : man.halt = false) (chunks : List Bytes)
    (hguard : RunGuard (manRead cmds) ReadTakes (.start man) chunks) :
    ∃ s outs, run (manRead cmds) (.start man) chunks = some (s, outs) ∧
      (s.man, outs.flatten) = dispatchAll cmds man (commandLines 1024 chunks.flatten) ∧
      outs.flatten <+: commandLines 1024 chunks.flatten := by
  obtain ⟨s, outs, hrun, hdispatched, _⟩ :=
    manRead_run cmds chunks hopen not_mem_nil hguard
  have houts : outs.flatten = (dispatchAll cmds man (commandLines 1024 chunks.flatten)).2 :=
    congrArg snd hdispatched
  refine ⟨s, outs, hrun, hdispatched, ?_⟩
  rw [houts]
  exact dispatchAll_prefix cmds man _

/-! ## Streams that fit the buffer -/

theorem addByte_length (cl : CommandLine size) (c : UInt8) :
    (cl.addByte c).buf.length ≤ cl.buf.length + 1 := by
  unfold CommandLine.addByte
  split
  · split
    · exact le_of_eq length_append
    · exact zero_le _
  · exact le_succ _

theorem commandLineAdd_length (cl : CommandLine size) (buf : Bytes) :
    (commandLineAdd cl buf).buf.length ≤ cl.buf.length + buf.length := by
  induction buf generalizing cl with
  | nil => exact le_refl _
  | cons c buf ih =>
    have hbyte := addByte_length cl c
    have hrest := ih (cl.addByte c)
    show (commandLineAdd (cl.addByte c) buf).buf.length ≤ _
    rw [length_cons]
    omega

theorem manReadLoop_length (man : ManConnection π) (cl : CommandLine size) :
    (manReadLoop cmds man cl).2.1.buf.length ≤ cl.buf.length := by
  fun_induction manReadLoop cmds man cl with
  | case1 man cl hget => exact le_refl _
  | case2 man cl line cl' hget man' hhalt =>
    obtain ⟨_, hbuf, hline⟩ := commandLineGet_line hget
    show cl'.buf.length ≤ _
    rw [hline, hbuf, length_append]
    exact le_add_right _ _
  | case3 man cl line cl' hget man' hhalt r ih =>
    exact le_trans ih (le_of_lt (commandLineGet_lt hget))

theorem takes_of_length {buf : Bytes} (h : cl.buf.length + buf.length ≤ size) : cl.Takes buf := by
  induction buf generalizing cl with
  | nil => trivial
  | cons c buf ih =>
    have hbyte := addByte_length cl c
    rw [length_cons] at h
    refine ⟨fun _ => .inl (by omega), ih (by omega)⟩

theorem runGuard_of_length {chunks : List Bytes}
    (h : s.cl.buf.length + chunks.flatten.length ≤ 1024) :
    RunGuard (manRead cmds) ReadTakes s chunks := by
  induction chunks generalizing s with
  | nil => trivial
  | cons buf chunks ih =>
    rw [flatten_cons, length_append] at h
    refine ⟨.inr (takes_of_length (by omega)), fun s' out hread => ih ?_⟩
    unfold manRead at hread
    split at hread
    · cases hread
      omega
    · cases hread
      have hadd := commandLineAdd_length s.cl buf
      have hloop := manReadLoop_length cmds s.man (commandLineAdd s.cl buf)
      show (manReadLoop cmds s.man (commandLineAdd s.cl buf)).2.1.buf.length + _ ≤ 1024
      omega

def noCommands : ManCommands Unit := ⟨fun man _ => man, id⟩

def sampleClient : ManConnection Unit := ⟨none, false, ()⟩

/-- The stream `pid`, newline, `state`, newline in three reads. -/
def commandReads : List Bytes := [[112, 105], [100, 10, 115, 116, 97], [116, 101, 10]]

theorem commands_are_lines_two : ∃ s outs,
    run (manRead noCommands) (.start sampleClient) commandReads = some (s, outs) ∧
      outs.flatten = [[112, 105, 100], [115, 116, 97, 116, 101]] := by
  have hopen : sampleClient.halt = false := rfl
  obtain ⟨s, outs, hrun, hdispatched, _⟩ := commands_are_lines noCommands hopen commandReads
    (runGuard_of_length noCommands (by decide))
  exact ⟨s, outs, hrun, congrArg snd hdispatched⟩

/-! ## A line that is too long -/

/-- **The end of a long line is run.** When the buffer is full, the next byte is lost together
with the buffer, and what comes after it is taken for a line. -/
theorem long_line_runs_its_end (hopen : s.man.halt = false) (hfull : s.cl.buf.length = 1024)
    (hc : commandChar c = true) (hline : NEWLINE ∉ line) (hplain : ∀ b ∈ line, commandChar b = true)
    (hlen : line.length < 1024) :
    ∃ s', manRead cmds s (c :: (line ++ [NEWLINE])) = some (s', [line]) := by
  have hclr : (s.cl.addByte c).buf = [] := addByte_full s.cl hc (by omega)
  have htakes : (s.cl.addByte c).Takes (line ++ [NEWLINE]) := by
    apply takes_of_length
    rw [hclr, length_append, length_singleton, length_nil, zero_add]
    exact hlen
  have hkept : (line ++ [NEWLINE]).filter commandChar = line ++ [NEWLINE] := by
    rw [filter_append, filter_eq_self.mpr hplain]
    rfl
  have hls : (linesFrom NEWLINE (s.cl.addByte c).buf
      ((line ++ [NEWLINE]).filter commandChar)).1.filter (lineFits 1024) = [line] := by
    rw [hclr, hkept, linesFrom_line hline]
    simp [linesFrom, lineFits, hlen]
  have hline' : (dispatchAll cmds s.man [line]).2 = [line] := by
    rw [dispatchAll]
    split <;> rfl
  -- what comes after the byte is read as if the buffer had been empty before
  have hrest : manRead cmds s (c :: (line ++ [NEWLINE])) =
      manRead cmds ⟨s.man, s.cl.addByte c⟩ (line ++ [NEWLINE]) := by
    rw [manRead_of_open cmds hopen, @manRead_of_open _ _ ⟨s.man, s.cl.addByte c⟩ hopen]
    rfl
  obtain ⟨s', hread, -⟩ := @manRead_spec _ cmds ⟨s.man, s.cl.addByte c⟩ _ hopen
    (hclr ▸ not_mem_nil) htakes
  refine ⟨s', ?_⟩
  rw [hrest, hread, hls, hline']

/-- Reads that fill the buffer. -/
def fillReads : List Bytes := replicate 4 (replicate 256 120)

/-- A line of 1025 bytes, then `quit` in the same line. -/
def longLineReads : List Bytes := fillReads ++ [120 :: ([113, 117, 105, 116] ++ [NEWLINE])]

theorem flatten_fillReads : fillReads.flatten = replicate 1024 120 :=
  flatten_replicate_replicate

theorem long_line_runs_quit : commandLines 1024 longLineReads.flatten = [] ∧ ∃ s outs,
    run (manRead noCommands) (.start sampleClient) longLineReads = some (s, outs) ∧
      outs.flatten = [[113, 117, 105, 116]] := by
  have hplain : commandChar 120 = true := rfl
  have hopen : sampleClient.halt = false := rfl
  have hnewline : NEWLINE ∉ replicate 1024 (120 : UInt8) := by
    rw [mem_replicate]
    exact fun h => absurd h.2 (by decide)
  have hlast : NEWLINE ∉ replicate 1024 (120 : UInt8) ++ 120 :: [113, 117, 105, 116] := by
    rw [mem_append]
    exact fun h => h.elim hnewline (by decide)
  constructor
  · have hstream : longLineReads.flatten.filter commandChar =
        (replicate 1024 120 ++ 120 :: [113, 117, 105, 116]) ++ [NEWLINE] := by
      rw [longLineReads, flatten_append, flatten_fillReads, filter_append, filter_replicate,
        if_pos hplain, append_assoc]
      rfl
    have hlong : ¬lineFits 1024
        (replicate 1024 (120 : UInt8) ++ 120 :: [113, 117, 105, 116]) = true := by
      rw [lineFits, decide_eq_true_eq, length_append, length_replicate]
      omega
    rw [commandLines, hstream, linesFrom_line hlast, filter_cons_of_neg hlong]
    rfl
  · have hfits : (ManSession.start sampleClient).cl.buf.length +
        fillReads.flatten.length ≤ 1024 := by
      rw [flatten_fillReads, length_replicate]
      exact le_refl _
    have hstart : NEWLINE ∉ (ManSession.start sampleClient).cl.buf := not_mem_nil
    obtain ⟨s, outs, hrun, hdispatched, hleft⟩ :=
      manRead_run noCommands fillReads hopen hstart (runGuard_of_length noCommands hfits)
    have hheld : linesFrom NEWLINE (ManSession.start sampleClient).cl.buf
        (replicate 1024 120) = ([], replicate 1024 120) := linesFrom_of_not_mem hnewline
    rw [flatten_fillReads, filter_replicate, if_pos hplain, hheld] at hdispatched hleft
    have hman : s.man = sampleClient := congrArg fst hdispatched
    have hopen' : s.man.halt = false := by rw [hman, hopen]
    have hfull : s.cl.buf.length = 1024 := by rw [hleft hopen', length_replicate]
    have hquit : NEWLINE ∉ ([113, 117, 105, 116] : Bytes) := by decide
    obtain ⟨s', hread⟩ := long_line_runs_its_end noCommands hopen' hfull hplain hquit
      (all_eq_true.mp rfl) (by decide)
    refine ⟨s', _, run_append hrun (run_cons hread rfl), ?_⟩
    have hquiet : outs.flatten = [] := congrArg snd hdispatched
    rw [flatten_append, hquiet]
    rfl

end OpenVpn
