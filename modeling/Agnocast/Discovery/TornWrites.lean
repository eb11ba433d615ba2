import Agnocast.Discovery.TypeRegistry

/-!
# The type registry — lines that were cut off

* `FileOk`        — the invariant of a file: whole lines, and behind them the beginning of one.
* `ingestFile_eq` — what the reader makes of such a file.
* `type_registry` — while nobody registers behind a line that was cut off, the reader finds the
  latest whole registration of every key, and nothing else.
* `torn_line_hides_the_next` — behind a line that was cut off the next one is lost.
-/

namespace Agnocast

open Transition

/-! ## What the writers owe and what the reader has to find -/

/-- A field of a line: no tab and no line separator. -/
def Field (name : Name) : Prop := ∀ c ∈ name, c ≠ '\t' ∧ Text.isLineBreak c = false

/-- A registration whose line the reader can take apart: plain names and one of the two roles. -/
structure Registration.Plain (reg : Registration) : Prop where
  topicName : Field reg.topicName
  typeName : Field reg.typeName
  nodeName : Field reg.nodeName
  role : reg.role = rolePub ∨ reg.role = roleSub

/-- What a call is made with; no other process has registered the key. -/
structure RegistersType (s : TypeRegistry) (pid : Pid) (reg : Registration) : Prop where
  plain : reg.Plain
  owner : ∀ pid' reg', (pid', reg') ∈ s.begun → reg'.key = reg.key → pid' = pid

/-- The calls that are made. -/
def RegistryGuard (s : TypeRegistry) : RegistryInput → Prop
  | .registerType pid reg _ => RegistersType s pid reg
  | .write _ _ => True

/-- The file ends in a line that was cut off: nobody is writing it any more. -/
def Torn (w : TypeRegistryWriter) : Prop :=
  w.pending = none ∧ ∃ data b, w.file = some data ∧ data.getLast? = some b ∧ b ≠ 0x0A

/-- Nobody registers behind a line that was cut off. -/
def UntornGuard (s : TypeRegistry) (i : RegistryInput) : Prop :=
  RegistryGuard s i ∧
    ∀ pid reg opens, i = .registerType pid reg opens → ¬ Torn (s.writers pid)

/-- The order in which the directory lists the files. -/
def Lists (s : TypeRegistry) (entries : List Pid) : Prop :=
  entries.Nodup ∧ ∀ pid, pid ∈ entries ↔ (s.writers pid).file.isSome = true

/-- The latest registration of a key whose whole line was written, with its process. -/
def TypeRegistry.latest (s : TypeRegistry) (key : RegistryKey) : Option (Pid × Registration) :=
  (s.written.filter fun e => e.2.key = key).getLast?

/-- What the table has to say: the latest whole registration of each key, and no key and type that
nobody has registered. -/
structure TableCorrect (s : TypeRegistry) (table : RegistryTable) : Prop where
  written : ∀ topicName role nodeName pid reg,
    s.latest (topicName, role, nodeName) = some (pid, reg) →
      lookup table topicName role nodeName = some ⟨pid, reg.typeName⟩
  registered : ∀ topicName role nodeName entry,
    lookup table topicName role nodeName = some entry →
      ∃ reg, (entry.pid, reg) ∈ s.begun ∧ reg.key = (topicName, role, nodeName) ∧
        reg.typeName = entry.typeName

/-! ## Lines -/

/-- The test of a given name, character by character. -/
theorem Field.of_all {name : Name}
    (h : (name.all fun c => c != '\t' && !Text.isLineBreak c) = true) : Field name := by
  intro c hc
  have hchar := List.all_eq_true.mp h c hc
  rw [Bool.and_eq_true, bne_iff_ne, Bool.not_eq_true'] at hchar
  exact hchar

namespace Registration

variable {reg : Registration}

theorem Plain.role_field (h : reg.Plain) : Field reg.role := by
  rcases h.role with heq | heq <;> rw [heq] <;> exact .of_all (by decide)

theorem Plain.body_not_break (h : reg.Plain) : ∀ c ∈ reg.body, Text.isLineBreak c = false := by
  intro c hc
  unfold body at hc
  simp only [List.mem_append, List.mem_singleton] at hc
  rcases hc with (((((hc | rfl) | hc) | rfl) | hc) | rfl) | hc
  · exact (h.topicName c hc).2
  · rfl
  · exact (h.typeName c hc).2
  · rfl
  · exact (h.role_field c hc).2
  · rfl
  · exact (h.nodeName c hc).2

theorem Plain.newline_not_mem_body (h : reg.Plain) : '\n' ∉ reg.body := fun hmem =>
  absurd (h.body_not_break _ hmem) (by decide)

/-- The fields come back. -/
theorem Plain.splitOn_body (h : reg.Plain) :
    reg.body.splitOn '\t' = [reg.topicName, reg.typeName, reg.role, reg.nodeName] := by
  have hbody : reg.body =
      ['\t'].intercalate [reg.topicName, reg.typeName, reg.role, reg.nodeName] := by
    simp [body, List.intercalate]
  rw [hbody]
  refine List.splitOn_intercalate _ (fun field hfield hmem => ?_) (by simp)
  have htab {field : Name} (hf : Field field) (hmem : '\t' ∈ field) : False :=
    (hf _ hmem).1 rfl
  simp only [List.mem_cons, List.not_mem_nil, or_false] at hfield
  rcases hfield with rfl | rfl | rfl | rfl
  · exact htab h.topicName hmem
  · exact htab h.typeName hmem
  · exact htab h.role_field hmem
  · exact htab h.nodeName hmem

end Registration

/-- **A whole line** is taken in. -/
theorem ingestLine_line {reg : Registration} (h : reg.Plain) (pid : Pid) (table : RegistryTable) :
    ingestLine pid table reg.line = Dict.set table reg.key ⟨pid, reg.typeName⟩ := by
  unfold ingestLine Registration.line
  rw [if_neg (by simp), List.dropLast_concat, h.splitOn_body]
  exact if_pos h.role

/-- What does not end with a newline is skipped. -/
private theorem ingestLine_tail {piece : List Char} (h : '\n' ∉ piece) (pid : Pid)
    (table : RegistryTable) : ingestLine pid table piece = table :=
  if_pos fun heq => h (List.mem_of_getLast? heq)

/-- The bytes of whole lines. -/
def linesOf (regs : List Registration) : List UInt8 :=
  (regs.map fun reg => Text.encode reg.line).flatten

/-- **What the reader makes of a file**: whole lines are taken in, the beginning of a line behind
them is not. -/
theorem ingestFile_eq {regs : List Registration} (h : ∀ reg ∈ regs, reg.Plain) {tail : List UInt8}
    (htail : 0x0A ∉ tail) (pid : Pid) (table : RegistryTable) :
    ingestFile pid (linesOf regs ++ tail) table =
      regs.foldl (fun table reg => Dict.set table reg.key ⟨pid, reg.typeName⟩) table := by
  induction regs generalizing table with
  | nil =>
    show (Text.splitLines (Text.decode tail)).foldl (ingestLine pid) table = table
    have hpieces := Text.splitLines_tail fun hmem => htail (Text.newline_mem_decode hmem)
    generalize Text.splitLines (Text.decode tail) = pieces at hpieces
    induction pieces with
    | nil => rfl
    | cons piece pieces ih =>
      rw [List.foldl_cons, ingestLine_tail (hpieces piece List.mem_cons_self)]
      exact ih fun piece hpiece => hpieces piece (List.mem_cons_of_mem _ hpiece)
  | cons reg regs ih =>
    have hreg := h reg List.mem_cons_self
    have hfile : linesOf (reg :: regs) ++ tail =
        Text.encode reg.line ++ (linesOf regs ++ tail) := by
      unfold linesOf
      rw [List.map_cons, List.flatten_cons, List.append_assoc]
    have hsplit : Text.splitLines (Text.decode (linesOf (reg :: regs) ++ tail)) =
        reg.line :: Text.splitLines (Text.decode (linesOf regs ++ tail)) := by
      rw [hfile, Text.decode_encode_append]
      unfold Registration.line
      rw [List.append_assoc, List.singleton_append, Text.splitLines_line hreg.body_not_break]
    unfold ingestFile at ih ⊢
    rw [hsplit, List.foldl_cons, ingestLine_line hreg, List.foldl_cons]
    exact ih (fun reg hmem => h reg (List.mem_cons_of_mem _ hmem)) _

/-! ## The invariant -/

/-- A file: the lines of these registrations, and behind them the beginning of a line, of which a
call that is in its loop writes the rest. -/
structure FileOk (w : TypeRegistryWriter) (regs : List Registration) (tail : List UInt8) : Prop where
  data : w.file.getD [] = linesOf regs ++ tail
  unended : 0x0A ∉ tail
  opened : w.pending ≠ none → w.file ≠ none
  rest : ∀ reg rest, w.pending = some (reg, rest) →
    rest ≠ [] ∧ tail ++ rest = Text.encode reg.line

namespace FileOk

variable {w : TypeRegistryWriter} {regs : List Registration} {tail : List UInt8}

/-- Behind whole lines nothing has been cut off. -/
theorem tail_eq_nil (h : FileOk w regs tail) (hpending : w.pending = none) (hno : ¬ Torn w) :
    tail = [] := by
  by_contra hne
  have hlast := List.getLast?_eq_some_getLast hne
  have hdata := h.data
  cases hfile : w.file with
  | none =>
    rw [hfile, Option.getD_none] at hdata
    exact hne (List.append_eq_nil_iff.mp hdata.symm).2
  | some data =>
    rw [hfile, Option.getD_some] at hdata
    refine hno ⟨hpending, data, tail.getLast hne, hfile, ?_, fun heq => ?_⟩
    · rw [hdata, List.getLast?_append, hlast, Option.some_or]
    · exact h.unended (heq ▸ List.getLast_mem hne)

/-- A line that is about to be written. -/
private theorem begin_line (h : FileOk w regs []) (hopen : w.file ≠ none) (reg : Registration) :
    FileOk { w with pending := some (reg, Text.encode reg.line) } regs [] where
  data := h.data
  unended := h.unended
  opened _ := hopen
  rest reg' rest heq := by
    obtain ⟨rfl, rfl⟩ := Prod.mk.inj (Option.some.inj heq)
    refine ⟨?_, rfl⟩
    unfold Registration.line
    rw [Text.encode_append]
    exact List.append_ne_nil_of_right_ne_nil _ (by decide)

theorem registerType (h : FileOk w regs []) (hpending : w.pending = none) (reg : Registration)
    (opens : Bool) : FileOk (w.registerType reg opens) regs [] := by
  have hnone (reg' rest) : w.pending ≠ some (reg', rest) := by
    rw [hpending]
    exact nofun
  unfold TypeRegistryWriter.registerType TypeRegistryWriter.ensureOpenLocked
  cases hfile : w.file with
  | some data =>
    have hopen : w.file ≠ none := by
      rw [hfile]
      exact nofun
    simpa [hfile] using h.begin_line hopen reg
  | none =>
    cases hwarned : w.openFailedWarned with
    | true => simpa [hfile, hwarned] using h
    | false =>
      have hdata := h.data
      rw [hfile, Option.getD_none] at hdata
      cases opens with
      | true =>
        have hopened : FileOk { w with file := some [] } regs [] :=
          ⟨hdata, h.unended, fun _ => nofun, fun reg' rest heq => absurd heq (hnone reg' rest)⟩
        simpa [hfile, hwarned] using hopened.begin_line nofun reg
      | false =>
        have hfailed : FileOk { w with openFailedWarned := true } regs [] :=
          ⟨h.data, h.unended, h.opened, h.rest⟩
        simpa [hfile, hwarned] using hfailed

/-- The call gives up. -/
private theorem give_up (h : FileOk w regs tail) : FileOk { w with pending := none } regs tail :=
  ⟨h.data, h.unended, fun hne => absurd rfl hne, nofun⟩

/-- A line ends with its only newline. -/
private theorem newline_not_mem_of_rest {reg : Registration} (hplain : reg.Plain)
    {front rest : List UInt8} (heq : front ++ rest = Text.encode reg.line) (hne : rest ≠ []) :
    0x0A ∉ front := by
  unfold Registration.line at heq
  rw [Text.encode_append] at heq
  have hfront : front ++ rest.dropLast = Text.encode reg.body := by
    have hdrop := congrArg List.dropLast heq
    rw [List.dropLast_append_of_ne_nil hne] at hdrop
    exact hdrop.trans (List.dropLast_concat ..)
  intro hmem
  have hbody : 0x0A ∈ Text.encode reg.body := hfront ▸ List.mem_append_left _ hmem
  exact hplain.newline_not_mem_body (Text.newline_mem_encode.mp hbody)

/-- **A turn of the loop** adds to the beginning of the line, or completes it. -/
theorem write (h : FileOk w regs tail)
    (hplain : ∀ reg rest, w.pending = some (reg, rest) → reg.Plain) (result : WriteResult) :
    ∃ tail', FileOk (w.write result) (regs ++ (w.finishes result).toList) tail' := by
  unfold TypeRegistryWriter.write TypeRegistryWriter.finishes
  cases hpending : w.pending with
  | none => exact ⟨tail, by simpa [hpending] using h⟩
  | some call =>
    obtain ⟨reg, remaining⟩ := call
    obtain ⟨hne, hline⟩ := h.rest reg remaining hpending
    cases hfile : w.file with
    | none => exact absurd hfile (h.opened (by rw [hpending]; exact nofun))
    | some data =>
      have hdata := h.data
      rw [hfile, Option.getD_some] at hdata
      cases result with
      | interrupted => exact ⟨tail, by simpa using h⟩
      | failed => exact ⟨tail, by simpa [hfile] using h.give_up⟩
      | wrote n =>
        dsimp only
        by_cases hpos : 0 < n
        · rw [if_pos hpos]
          by_cases hall : remaining.drop n = []
          · -- the whole line is there
            have htake : remaining.take n = remaining := by
              have happend := List.take_append_drop n remaining
              rwa [hall, List.append_nil] at happend
            have hempty : (remaining.drop n).isEmpty = true := by rw [hall]; rfl
            have hboth : 0 < n ∧ (remaining.drop n).isEmpty = true := ⟨hpos, hempty⟩
            rw [if_pos hboth, if_pos hempty, htake]
            refine ⟨[], ?_, List.not_mem_nil, fun _ => nofun, nofun⟩
            rw [Option.getD_some, hdata, List.append_assoc, hline, List.append_nil,
              Option.toList_some]
            unfold linesOf
            simp
          · have hmore : ¬ (remaining.drop n).isEmpty = true := by simpa using hall
            have hline' : (tail ++ remaining.take n) ++ remaining.drop n = Text.encode reg.line := by
              rw [List.append_assoc, List.take_append_drop, hline]
            have hnot : ¬ (0 < n ∧ (remaining.drop n).isEmpty = true) := fun hboth => hmore hboth.2
            rw [if_neg hnot, if_neg hmore, Option.toList_none, List.append_nil]
            refine ⟨tail ++ remaining.take n, ?_, ?_, fun _ => nofun, fun reg' rest heq => ?_⟩
            · rw [Option.getD_some, hdata, List.append_assoc]
            · exact newline_not_mem_of_rest (hplain reg remaining hpending) hline' hall
            · obtain ⟨rfl, rfl⟩ := Prod.mk.inj (Option.some.inj heq)
              exact ⟨hall, hline'⟩
        · have hnot : ¬ (0 < n ∧ (remaining.drop n).isEmpty = true) := fun hboth => hpos hboth.1
          rw [if_neg hpos, if_neg hnot, Option.toList_none, List.append_nil]
          exact ⟨tail, hfile ▸ h.give_up⟩

end FileOk

/-- The registrations of one process whose whole line was written. -/
def TypeRegistry.writtenBy (s : TypeRegistry) (pid : Pid) : List Registration :=
  (s.written.filter fun e => e.1 = pid).map Prod.snd

/-- All files are in order, and keys have owners. -/
structure RegistryOk (s : TypeRegistry) : Prop where
  files : ∀ pid, ∃ tail, FileOk (s.writers pid) (s.writtenBy pid) tail
  plain : ∀ pid reg, (pid, reg) ∈ s.begun → reg.Plain
  pending : ∀ pid reg rest, (s.writers pid).pending = some (reg, rest) → (pid, reg) ∈ s.begun
  written : ∀ e ∈ s.written, e ∈ s.begun
  owner : ∀ pid reg pid' reg', (pid, reg) ∈ s.begun → (pid', reg') ∈ s.begun →
    reg.key = reg'.key → pid = pid'

namespace RegistryOk

variable {s : TypeRegistry}

theorem empty : RegistryOk .empty where
  files _ := ⟨[], rfl, List.not_mem_nil, fun hne => absurd rfl hne, nofun⟩
  plain _ _ hmem := nomatch hmem
  pending _ _ _ := nofun
  written _ hmem := nomatch hmem
  owner _ _ _ _ hmem := nomatch hmem

private theorem ensureOpenLocked_pending (w : TypeRegistryWriter) (opens : Bool) :
    (w.ensureOpenLocked opens).pending = w.pending := by
  unfold TypeRegistryWriter.ensureOpenLocked
  split
  · rfl
  · split
    · rfl
    · split <;> rfl

/-- The pending call after `register_type` is the one there was or this one. -/
private theorem registerType_pending {w : TypeRegistryWriter} {reg reg' : Registration}
    {opens : Bool} {rest : List UInt8}
    (h : (w.registerType reg opens).pending = some (reg', rest)) :
    w.pending = some (reg', rest) ∨ reg' = reg := by
  unfold TypeRegistryWriter.registerType at h
  dsimp only at h
  split at h
  · cases h
    exact .inr rfl
  · rw [ensureOpenLocked_pending] at h
    exact .inl h

theorem registerType (h : RegistryOk s) {pid : Pid} {reg : Registration} (hreg : RegistersType s pid reg)
    (hno : ¬ Torn (s.writers pid)) (opens : Bool) : RegistryOk (s.registerType pid reg opens) := by
  unfold TypeRegistry.registerType
  split
  · exact h
  next hfree =>
  have hpending : (s.writers pid).pending = none := by simpa using hfree
  refine ⟨fun pid' => ?_, fun pid' reg' hmem => ?_, fun pid' reg' rest heq => ?_,
    fun e he => List.mem_append_left _ (h.written e he), fun p r p' r' hr hr' hkey => ?_⟩
  · obtain ⟨tail, hfile⟩ := h.files pid'
    by_cases hpid : pid' = pid
    · subst hpid
      obtain rfl := hfile.tail_eq_nil hpending hno
      refine ⟨[], ?_⟩
      dsimp only
      rw [Function.update_self]
      exact hfile.registerType hpending reg opens
    · refine ⟨tail, ?_⟩
      dsimp only
      rw [Function.update_of_ne hpid]
      exact hfile
  · rcases List.mem_append.mp hmem with hmem | hmem
    · exact h.plain pid' reg' hmem
    · obtain ⟨-, rfl⟩ := Prod.mk.inj (List.mem_singleton.mp hmem)
      exact hreg.plain
  · by_cases hpid : pid' = pid
    · subst hpid
      dsimp only at heq
      rw [Function.update_self] at heq
      rcases registerType_pending heq with hold | rfl
      · exact List.mem_append_left _ (h.pending pid' reg' rest hold)
      · exact List.mem_append_right _ (List.mem_singleton_self _)
    · dsimp only at heq
      rw [Function.update_of_ne hpid] at heq
      exact List.mem_append_left _ (h.pending pid' reg' rest heq)
  · rcases List.mem_append.mp hr with hold | hnew <;>
      rcases List.mem_append.mp hr' with hold' | hnew'
    · exact h.owner p r p' r' hold hold' hkey
    · obtain ⟨rfl, rfl⟩ := Prod.mk.inj (List.mem_singleton.mp hnew')
      exact hreg.owner p r hold hkey
    · obtain ⟨rfl, rfl⟩ := Prod.mk.inj (List.mem_singleton.mp hnew)
      exact (hreg.owner p' r' hold' hkey.symm).symm
    · rw [(Prod.mk.inj (List.mem_singleton.mp hnew)).1, (Prod.mk.inj (List.mem_singleton.mp hnew')).1]

/-- The pending call after a turn of the loop is the one there was. -/
private theorem write_pending {w : TypeRegistryWriter} {result : WriteResult} {reg : Registration}
    {rest : List UInt8} (h : (w.write result).pending = some (reg, rest)) :
    ∃ rest', w.pending = some (reg, rest') := by
  unfold TypeRegistryWriter.write at h
  split at h
  · next reg' remaining data hpending hfile =>
    split at h
    · split at h
      · dsimp only at h
        split at h
        · cases h
        · cases h
          exact ⟨remaining, hpending⟩
      · cases h
    · exact ⟨rest, h⟩
    · cases h
  · exact ⟨rest, h⟩

private theorem finishes_pending {w : TypeRegistryWriter} {result : WriteResult}
    {reg : Registration} (h : w.finishes result = some reg) :
    ∃ rest, w.pending = some (reg, rest) := by
  unfold TypeRegistryWriter.finishes at h
  split at h
  · next reg' remaining n hpending =>
    split at h
    · cases h
      exact ⟨remaining, hpending⟩
    · cases h
  · cases h

private theorem writtenBy_write (s : TypeRegistry) (pid pid' : Pid) (result : WriteResult) :
    (s.write pid result).writtenBy pid' = s.writtenBy pid' ++
      if pid' = pid then ((s.writers pid).finishes result).toList else [] := by
  unfold TypeRegistry.writtenBy TypeRegistry.write
  rw [List.filter_append, List.map_append]
  congr 1
  cases (s.writers pid).finishes result with
  | none => simp
  | some reg =>
    by_cases hpid : pid' = pid
    · simp [hpid]
    · simp [hpid, Ne.symm hpid]

theorem write (h : RegistryOk s) (pid : Pid) (result : WriteResult) :
    RegistryOk (s.write pid result) := by
  refine ⟨fun pid' => ?_, h.plain, fun pid' reg rest heq => ?_, fun e he => ?_, h.owner⟩
  · obtain ⟨tail, hfile⟩ := h.files pid'
    rw [writtenBy_write]
    unfold TypeRegistry.write
    dsimp only
    by_cases hpid : pid' = pid
    · subst hpid
      rw [Function.update_self, if_pos rfl]
      exact hfile.write (fun reg rest heq => h.plain _ _ (h.pending _ _ _ heq)) result
    · rw [Function.update_of_ne hpid, if_neg hpid, List.append_nil]
      exact ⟨tail, hfile⟩
  · unfold TypeRegistry.write at heq
    dsimp only at heq
    by_cases hpid : pid' = pid
    · subst hpid
      rw [Function.update_self] at heq
      obtain ⟨rest', hrest⟩ := write_pending heq
      exact h.pending pid' reg rest' hrest
    · rw [Function.update_of_ne hpid] at heq
      exact h.pending pid' reg rest heq
  · rcases List.mem_append.mp he with he | he
    · exact h.written e he
    · rw [Option.mem_toList, Option.map_eq_some_iff] at he
      obtain ⟨reg, hfin, rfl⟩ := he
      obtain ⟨rest, hrest⟩ := finishes_pending hfin
      exact h.pending pid reg rest hrest

theorem of_run {tr : List (Event TypeRegistry RegistryInput Unit)}
    (hrun : Run typeRegistry UntornGuard tr s) : RegistryOk s := by
  refine hrun.invariant ?_ fun s i h hguard => ?_
  · rintro s rfl
    exact empty
  · cases i with
    | registerType pid reg opens =>
      exact h.registerType hguard.1 (hguard.2 pid reg opens rfl) opens
    | write pid result => exact h.write pid result

end RegistryOk

/-! ## What the reader finds -/

/-- The item of the table that a registration makes. -/
def registryItem (e : Pid × Registration) : RegistryKey × RegistryEntry :=
  (e.2.key, ⟨e.1, e.2.typeName⟩)

/-- The items of one file. -/
def itemsOf (s : TypeRegistry) (pid : Pid) : List (RegistryKey × RegistryEntry) :=
  (s.written.filter fun e => e.1 = pid).map registryItem

variable {s : TypeRegistry}

private theorem linesOf_ne_nil {regs : List Registration} (h : regs ≠ []) : linesOf regs ≠ [] := by
  obtain ⟨reg, regs, rfl⟩ := List.exists_cons_of_ne_nil h
  unfold linesOf Registration.line
  rw [List.map_cons, List.flatten_cons, Text.encode_append]
  simp [Text.encode]

/-- Whoever has written a whole line has a file. -/
private theorem file_isSome (h : RegistryOk s) {pid : Pid} (hne : s.writtenBy pid ≠ []) :
    (s.writers pid).file.isSome = true := by
  obtain ⟨tail, hfile⟩ := h.files pid
  have hdata := hfile.data
  cases hf : (s.writers pid).file with
  | some data => rfl
  | none =>
    rw [hf, Option.getD_none] at hdata
    exact absurd (List.append_eq_nil_iff.mp hdata.symm).1 (linesOf_ne_nil hne)

/-- **The reader takes in** the whole lines of all files, one file after the other. -/
theorem rebuild_eq (h : RegistryOk s) (entries : List Pid) :
    rebuild s entries =
      (entries.flatMap (itemsOf s)).foldl (fun table e => Dict.set table e.1 e.2) [] := by
  unfold rebuild
  generalize ([] : RegistryTable) = table
  induction entries generalizing table with
  | nil => rfl
  | cons pid entries ih =>
    rw [List.foldl_cons, List.flatMap_cons, List.foldl_append, ih]
    congr 1
    obtain ⟨tail, hfile⟩ := h.files pid
    have hdata := hfile.data
    have hitems : itemsOf s pid = (s.writtenBy pid).map fun reg => registryItem (pid, reg) := by
      unfold itemsOf TypeRegistry.writtenBy
      rw [List.map_map]
      refine List.map_congr_left fun e he => ?_
      have hpid : e.1 = pid := by simpa using (List.mem_filter.mp he).2
      show registryItem e = registryItem (pid, e.2)
      rw [← hpid]
    rw [hitems, List.foldl_map]
    cases hf : (s.writers pid).file with
    | none =>
      have hnone : s.writtenBy pid = [] := by
        by_contra hne
        have hsome := file_isSome h hne
        rw [hf] at hsome
        cases hsome
      rw [hnone]
      rfl
    | some data =>
      rw [hf, Option.getD_some] at hdata
      dsimp only
      rw [hdata]
      refine ingestFile_eq (fun reg hreg => ?_) hfile.unended pid table
      obtain ⟨e, he, rfl⟩ := List.mem_map.mp hreg
      exact h.plain e.1 e.2 (h.written e (List.mem_filter.mp he).1)

private theorem flatMap_single {α β : Type*} {f : α → List β} {l : List α} (hnd : l.Nodup) {a : α}
    (ha : a ∈ l) (hother : ∀ b ∈ l, b ≠ a → f b = []) : l.flatMap f = f a := by
  obtain ⟨front, back, rfl⟩ := List.append_of_mem ha
  have hnil {part : List α} (hsub : part ⊆ front ++ a :: back) (hnot : a ∉ part) :
      part.flatMap f = [] :=
    List.flatMap_eq_nil_iff.mpr fun b hb => hother b (hsub hb) fun heq => hnot (heq ▸ hb)
  have hmid := List.nodup_middle.mp hnd
  have hnot := (List.nodup_cons.mp hmid).1
  rw [List.mem_append, not_or] at hnot
  rw [List.flatMap_append, List.flatMap_cons, hnil (List.subset_append_left _ _) hnot.1,
    hnil (fun b hb => by simp [hb]) hnot.2, List.nil_append, List.append_nil]

/-- **The reader finds the latest whole registration of each key.** -/
theorem get_rebuild (h : RegistryOk s) {entries : List Pid} (hlists : Lists s entries)
    (key : RegistryKey) :
    Dict.get (rebuild s entries) key = (s.latest key).map fun e => ⟨e.1, e.2.typeName⟩ := by
  rw [rebuild_eq h, Dict.get_foldl_set_last, Dict.get_nil, Option.or_none]
  set found := s.written.filter fun e => e.2.key = key with hfound
  -- the lines of the key in one file are those that its process wrote
  have hfile (pid : Pid) : ((itemsOf s pid).filter fun e => e.1 = key) =
      (found.filter fun e => e.1 = pid).map registryItem := by
    unfold itemsOf
    rw [List.filter_map, hfound, List.filter_comm]
    rfl
  have hitems : ((entries.flatMap (itemsOf s)).filter fun e => e.1 = key) =
      found.map registryItem := by
    rw [List.filter_flatMap]
    simp only [hfile]
    rcases List.eq_nil_or_concat found with hnil | ⟨front, last, hlast⟩
    · rw [hnil]
      simp
    · -- one process owns the key
      have hmem : last ∈ found := by
        rw [hlast, List.concat_eq_append]
        exact List.mem_append_right _ (List.mem_singleton_self _)
      have hbegun {e} (he : e ∈ found) : e ∈ s.begun ∧ e.2.key = key := by
        have hin := List.mem_filter.mp he
        exact ⟨h.written e hin.1, by simpa using hin.2⟩
      have hsame : ∀ e ∈ found, e.1 = last.1 := fun e he =>
        h.owner e.1 e.2 last.1 last.2 (hbegun he).1 (hbegun hmem).1
          ((hbegun he).2.trans (hbegun hmem).2.symm)
      have hwritten : s.writtenBy last.1 ≠ [] := by
        unfold TypeRegistry.writtenBy
        refine List.ne_nil_of_mem (List.mem_map_of_mem (a := last) (List.mem_filter.mpr ⟨?_, by simp⟩))
        exact (List.mem_filter.mp hmem).1
      have hin : last.1 ∈ entries := (hlists.2 _).mpr (file_isSome h hwritten)
      rw [flatMap_single hlists.1 hin fun pid _ hne => ?_]
      · rw [List.filter_eq_self.mpr fun e he => by simpa using hsame e he]
      · rw [List.filter_eq_nil_iff.mpr fun e he => ?_, List.map_nil]
        simpa [hsame e he] using Ne.symm hne
  rw [hitems, List.getLast?_map, Option.map_map]
  rfl

/-- **The type registry**, while nobody registers behind a line that was cut off. -/
theorem type_registry {tr : List (Event TypeRegistry RegistryInput Unit)}
    (hrun : Run typeRegistry UntornGuard tr s) {entries : List Pid} (hlists : Lists s entries) :
    TableCorrect s (rebuild s entries) := by
  have hok := RegistryOk.of_run hrun
  refine ⟨fun topicName role nodeName pid reg hlatest => ?_,
    fun topicName role nodeName entry hlookup => ?_⟩
  · unfold lookup
    rw [get_rebuild hok hlists, hlatest]
    rfl
  · unfold lookup at hlookup
    rw [get_rebuild hok hlists, Option.map_eq_some_iff] at hlookup
    obtain ⟨e, hlatest, rfl⟩ := hlookup
    have hin := List.mem_filter.mp (List.mem_of_getLast? hlatest)
    exact ⟨e.2, hok.written e hin.1, by simpa using hin.2, rfl⟩

/-! ## Runs -/

/-- Two registrations of one process. -/
private def regA : Registration := ⟨['a'], ['A'], rolePub, ['n']⟩

private def regB : Registration := ⟨['b'], ['B'], rolePub, ['n']⟩

private theorem plain_regA : regA.Plain := by
  refine ⟨?_, ?_, ?_, .inl rfl⟩ <;> exact .of_all (by decide)

private theorem plain_regB : regB.Plain := by
  refine ⟨?_, ?_, ?_, .inl rfl⟩ <;> exact .of_all (by decide)

/-- The process that does something. -/
private def RegistryInput.pid : RegistryInput → Pid
  | .registerType pid _ _ => pid
  | .write pid _ => pid

private theorem exec_writers_of_ne {s : TypeRegistry} {is : List RegistryInput}
    {tr : List (Event TypeRegistry RegistryInput Unit)} {pid : Pid} (h : ∀ i ∈ is, pid ≠ i.pid) :
    (typeRegistry.exec s tr is).2.writers pid = s.writers pid := by
  induction is generalizing s tr with
  | nil => rfl
  | cons i is ih =>
    refine (ih fun j hj => h j (List.mem_cons_of_mem _ hj)).trans ?_
    have hpid := h i List.mem_cons_self
    cases i with
    | registerType pid' reg opens =>
      show (s.registerType pid' reg opens).writers pid = s.writers pid
      unfold TypeRegistry.registerType
      split
      · rfl
      · exact Function.update_of_ne hpid _ _
    | write pid' result => exact Function.update_of_ne hpid _ _

/-- A process alone with its file. -/
private theorem lists_seven {is : List RegistryInput} (h : ∀ i ∈ is, i.pid = 7)
    (hfile : ((typeRegistry.exec .empty [] is).2.writers 7).file.isSome = true) :
    Lists (typeRegistry.exec .empty [] is).2 [7] := by
  refine ⟨List.nodup_singleton _, fun pid => ?_⟩
  rw [List.mem_singleton]
  by_cases hpid : pid = 7
  · subst hpid
    exact ⟨fun _ => hfile, fun _ => rfl⟩
  · rw [exec_writers_of_ne fun i hi => (h i hi).symm ▸ hpid]
    exact ⟨fun heq => absurd heq hpid, nofun⟩

/-- A line written in two pieces, with an interruption between them. -/
theorem type_registry_two_pieces :
    let s := (typeRegistry.exec .empty []
      [.registerType 7 ⟨['a'], ['A'], rolePub, ['n']⟩ true, .write 7 (.wrote 3),
        .write 7 .interrupted, .write 7 (.wrote 100)]).2
    TableCorrect s (rebuild s [7]) := by
  have hguarded : typeRegistry.Guarded UntornGuard .empty
      [.registerType 7 ⟨['a'], ['A'], rolePub, ['n']⟩ true, .write 7 (.wrote 3),
        .write 7 .interrupted, .write 7 (.wrote 100)] := by
    refine ⟨⟨⟨plain_regA, nofun⟩, ?_⟩, ⟨trivial, nofun⟩, ⟨trivial, nofun⟩, ⟨trivial, nofun⟩, trivial⟩
    rintro pid reg opens - ⟨-, data, b, hfile, -⟩
    cases hfile
  exact type_registry (Run.exec (.init rfl) hguarded)
    (lists_seven (by simp [RegistryInput.pid]) (by decide +kernel))

/-- **Behind a line that was cut off** the next line is lost: a process whose disk was full for one
`write(2)`. -/
theorem torn_line_hides_the_next :
    ¬ ∀ tr s, Run typeRegistry RegistryGuard tr s → ∀ entries, Lists s entries →
      TableCorrect s (rebuild s entries) := by
  intro h
  have hguarded : typeRegistry.Guarded RegistryGuard .empty
      [.registerType 7 ⟨['a'], ['A'], rolePub, ['n']⟩ true, .write 7 (.wrote 2), .write 7 .failed,
        .registerType 7 ⟨['b'], ['B'], rolePub, ['n']⟩ true, .write 7 (.wrote 100)] := by
    refine ⟨⟨plain_regA, nofun⟩, trivial, trivial, ⟨plain_regB, ?_⟩, trivial, trivial⟩
    intro pid' reg' hmem _
    exact (Prod.mk.inj (List.mem_singleton.mp hmem)).1
  have hcorrect := h _ _ (Run.exec (.init rfl) hguarded) [7]
    (lists_seven (by simp [RegistryInput.pid]) (by decide +kernel))
  have hfound := hcorrect.written ['b'] rolePub ['n'] 7 regB (by decide +kernel)
  revert hfound
  decide +kernel

end Agnocast
