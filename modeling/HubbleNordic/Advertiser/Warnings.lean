import HubbleNordic.Advertiser.Restart
import HubbleNordic.Log

/-!
# The warnings of `hubble_advertiser.c`

`main.c` drops what the advertiser returns, so a refresh that fails shows in the log alone.  Here
`hubble_advertiser_update_data` stands once more, with its two warnings.

* `generateWarning`, `configureWarning`: the texts; `LogLine.code`: the result a line stands for;
* `Logged`, `loggedAdvertiser`: the advertiser with the log, each call with whatever the stack held
  where `hubble_log` has its buffer;
* `logged_update`: an update does what it does without the log, and a failing one adds one line;
* `log_code`: along every run the log, read line by line, lists the results of the refreshes that
  failed, and no line is cut off.
-/

namespace HubbleNordic

/-! ### The texts -/

/-- The first warning, up to its number. -/
def generateText : List UInt8 := ascii "Failed to generate Hubble advertisement (err="

/-- The second, up to its number. -/
def configureText : List UInt8 := ascii "Failed to set advertisement configuration (err="

/-- What closes both texts. -/
def closing : UInt8 := 0x29

/-- `Failed to generate Hubble advertisement (err=%d)`. -/
def generateWarning (ret : Int32) : List UInt8 :=
  generateText ++ (Decimal.printInt ret.toInt ++ [closing])

/-- `Failed to set advertisement configuration (err=%lu)`. -/
def configureWarning (err : UInt32) : List UInt8 :=
  configureText ++ (Decimal.print err.toNat ++ [closing])

/-- The number between `before` and the closing bracket. -/
def numberAfter (before text : List UInt8) : Option (List UInt8) :=
  if before.isPrefixOf text then some ((text.drop before.length).takeWhile (· ≠ closing)) else none

/-- The result of the refresh that the line warns of. -/
def LogLine.code (l : LogLine) : Option Int32 :=
  match numberAfter generateText l.text with
  | some s => some (Int32.ofInt (Decimal.readInt s))
  | none =>
      (numberAfter configureText l.text).map fun s => -(UInt32.ofNat (Decimal.value s)).toInt32

theorem numberAfter_append (before : List UInt8) {s : List UInt8} (hs : closing ∉ s) :
    numberAfter before (before ++ (s ++ [closing])) = some s := by
  have hdigits : ∀ b ∈ s, decide (b ≠ closing) = true := fun b hb =>
    decide_eq_true fun h => hs (h ▸ hb)
  rw [numberAfter, if_pos (List.isPrefixOf_iff_prefix.mpr (List.prefix_append _ _)),
    List.drop_left, List.takeWhile_append_of_pos hdigits]
  simp

/-- The texts differ where the shorter one has not ended. -/
theorem numberAfter_configureWarning (err : UInt32) :
    numberAfter generateText (configureWarning err) = none := by
  refine if_neg fun h => ?_
  have hp : generateText <+: configureText :=
    List.prefix_of_prefix_length_le (List.isPrefixOf_iff_prefix.mp h) (List.prefix_append _ _)
      (by decide)
  exact absurd hp (by decide)

theorem not_mem_printInt {b : UInt8} {z : ℤ} (hb : b < 0x2D) : b ∉ Decimal.printInt z := by
  intro h
  have hb := UInt8.lt_iff_toNat_lt.mp hb
  rcases Decimal.mem_printInt h with rfl | ⟨h, -⟩
  · exact absurd hb (by decide)
  · have : (0x2D : UInt8).toNat = 0x2D := rfl
    omega

theorem not_mem_print {b : UInt8} {n : ℕ} (hb : b < 0x2D) : b ∉ Decimal.print n := by
  have h := not_mem_printInt (z := (n : ℤ)) hb
  rwa [Decimal.printInt, if_neg (by omega)] at h

/-- A warning's number is the one that was printed. -/
theorem code_generateWarning (ret : Int32) :
    (LogLine.mk .warning (generateWarning ret)).code = some ret := by
  have h := numberAfter_append generateText (s := Decimal.printInt ret.toInt)
    (not_mem_printInt (by decide))
  simp only [LogLine.code, generateWarning, h, Decimal.readInt_printInt, Int32.ofInt_toInt]

theorem code_configureWarning (err : UInt32) :
    (LogLine.mk .warning (configureWarning err)).code = some (-err.toInt32) := by
  have h := numberAfter_append configureText (s := Decimal.print err.toNat)
    (not_mem_print (by decide))
  rw [LogLine.code, numberAfter_configureWarning]
  simp only [configureWarning, h, Option.map_some, (Decimal.isNumeral_print _).value,
    UInt32.ofNat_toNat]

/-! ### The advertiser with its log -/

/-- The advertiser, and the log. -/
structure Logged where
  world : World
  log : List LogLine

namespace Logged

variable (a : Answers) (buf : Vector UInt8 hubbleLogBufSize) (data : List UInt8) (s : Logged)

/-- `HUBBLE_LOG_WARNING`, which calls `hubble_log` and drops its result. -/
def hubbleLogWarning (text : List UInt8) (s : Logged) : Logged :=
  { s with log := (hubbleLog .warning (.whole text) buf s.log).2 }

/-- `hubble_advertiser_update_data`. -/
def hubbleAdvertiserUpdateData : Int32 × Logged :=
  let (ret, outLen, w) := hubbleBleAdvertiseGet a data s.world
  if ret ≠ 0 then (ret, hubbleLogWarning buf (generateWarning ret) ⟨w, s.log⟩)
  else
    let w := { w with hubbleAdvBuffer := w.hubbleAdvBuffer.setLength (UInt8.ofNat (outLen + 1)) }
    let len := UInt16.ofNat (outLen + 6)
    let startAfter := w.mStarted
    let w := if w.mStarted then (hubbleAdvertiserStop a w).2 else w
    let (err, w) := sdBleGapAdvSetConfigure a len w
    if err ≠ nrfSuccess then
      (-err.toInt32, hubbleLogWarning buf (configureWarning err) ⟨w, s.log⟩)
    else
      let w := if startAfter then (hubbleAdvertiserStart a w).2 else w
      (0, ⟨w, s.log⟩)

/-- `hubble_advertiser_init`. -/
def hubbleAdvertiserInit (config : Option HubbleAdvertiserConfig) : Int32 × Logged :=
  match config with
  | none => (-einval, s)
  | some config => hubbleAdvertiserUpdateData a buf [] ⟨initGapParams config s.world, s.log⟩

/-- The body of the call; starting and stopping log nothing. -/
def exec : Call → Int32 × Logged
  | .init config => hubbleAdvertiserInit a buf s config
  | .start =>
      let (ret, w) := hubbleAdvertiserStart a s.world
      (ret, ⟨w, s.log⟩)
  | .stop =>
      let (ret, w) := hubbleAdvertiserStop a s.world
      (ret, ⟨w, s.log⟩)
  | .updateData data => hubbleAdvertiserUpdateData a buf data s

end Logged

/-- The advertiser with its log, from boot. -/
def loggedAdvertiser : Mealy Logged (Event × Vector UInt8 hubbleLogBufSize) Report where
  init := ⟨.boot, []⟩
  next s
    | (.call c a, buf) =>
        let (ret, t) := Logged.exec a buf ⟨{ s.world with calls := [] }, s.log⟩ c
        some (⟨ret, t.world.calls, c.generated a s.world⟩, t)
    | (.advSetTerminated, _) =>
        (advertiser.next s.world .advSetTerminated).map fun (o, w) => (o, ⟨w, s.log⟩)

/-- The result of an event that is a refresh and fails. -/
def failure? : Event → Report → Option Int32
  | .call c _, o => if c.payload?.isSome ∧ o.ret ≠ 0 then some o.ret else none
  | .advSetTerminated, _ => none

/-- The results of the refreshes that failed, in order. -/
def failures (h : List ((Event × Vector UInt8 hubbleLogBufSize) × Report)) : List Int32 :=
  h.filterMap fun (i, o) => failure? i.1 o

/-! ### One update -/

section Update

variable {a : Answers} {buf : Vector UInt8 hubbleLogBufSize} {data : List UInt8} {s : Logged}

/-- A warning that fits the buffer is logged whole. -/
theorem hubbleLogWarning_eq {text : List UInt8} (h0 : 0 ∉ text)
    (hlen : text.length < hubbleLogBufSize) :
    s.hubbleLogWarning buf text = ⟨s.world, s.log ++ [⟨.warning, text⟩]⟩ := by
  have hlen : text.length < 128 := hlen
  have hneeded : ¬ (Formatted.whole text).needed < 0 := Formatted.whole_needed (by omega)
  have hlog := hubbleLog_text .warning hneeded h0 buf s.log
  have hcut : text.take (hubbleLogBufSize - 1) = text :=
    List.take_of_length_le (Nat.le_sub_one_of_lt hlen)
  unfold Logged.hubbleLogWarning
  rw [hlog]
  simp [HubbleLogLevel.severity?, Formatted.whole, hcut]

theorem generateWarning_logged (ret : Int32) :
    s.hubbleLogWarning buf (generateWarning ret) =
      ⟨s.world, s.log ++ [⟨.warning, generateWarning ret⟩]⟩ := by
  have hdigits := Decimal.length_printInt_le (k := 10) (z := ret.toInt) (by norm_num) (by
    have := ret.toInt_lt
    have := ret.le_toInt
    omega)
  have htext : generateText.length = 45 := by decide
  refine hubbleLogWarning_eq ?_ ?_
  · have hz := not_mem_printInt (b := 0) (z := ret.toInt) (by decide)
    have ht : 0 ∉ generateText := by decide
    simp [generateWarning, hz, ht, closing]
  · simp only [generateWarning, List.length_append, List.length_singleton, hubbleLogBufSize]
    omega

theorem configureWarning_logged (err : UInt32) :
    s.hubbleLogWarning buf (configureWarning err) =
      ⟨s.world, s.log ++ [⟨.warning, configureWarning err⟩]⟩ := by
  have hdigits := Decimal.length_print_le (k := 10) (n := err.toNat) (by norm_num)
    (lt_trans err.toNat_lt (by norm_num))
  have htext : configureText.length = 47 := by decide
  refine hubbleLogWarning_eq ?_ ?_
  · have hz := not_mem_print (b := 0) (n := err.toNat) (by decide)
    have ht : 0 ∉ configureText := by decide
    simp [configureWarning, hz, ht, closing]
  · simp only [configureWarning, List.length_append, List.length_singleton, hubbleLogBufSize]
    omega

/-- The log has grown by lines that stand for these results. -/
def Adds (log log' : List LogLine) (rets : List Int32) : Prop :=
  ∃ ls, log' = log ++ ls ∧ ls.map LogLine.code = rets.map some

/-- The results to warn of. -/
def failing (ret : Int32) : List Int32 := if ret ≠ 0 then [ret] else []

/-- **An update with its log**: it returns what it returns without, leaves the same world, and adds
a warning if it fails. -/
theorem logged_update (a : Answers) (buf : Vector UInt8 hubbleLogBufSize) (data : List UInt8)
    (s : Logged) :
    ∃ log, s.hubbleAdvertiserUpdateData a buf data =
        ((hubbleAdvertiserUpdateData a data s.world).1,
          ⟨(hubbleAdvertiserUpdateData a data s.world).2, log⟩) ∧
      Adds s.log log (failing (hubbleAdvertiserUpdateData a data s.world).1) := by
  unfold Logged.hubbleAdvertiserUpdateData hubbleAdvertiserUpdateData hubbleBleAdvertiseGet
  by_cases hret : (a.advertiseGet data).ret ≠ 0
  · simp only [if_pos hret, generateWarning_logged]
    refine ⟨_, rfl, [⟨.warning, generateWarning (a.advertiseGet data).ret⟩], rfl, ?_⟩
    simp only [List.map_singleton, code_generateWarning, failing, if_pos hret]
  · simp only [if_neg hret]
    generalize sdBleGapAdvSetConfigure a _ _ = r
    obtain ⟨err, w⟩ := r
    by_cases herr : err ≠ nrfSuccess
    · simp only [if_pos herr, configureWarning_logged]
      refine ⟨_, rfl, [⟨.warning, configureWarning err⟩], rfl, ?_⟩
      simp only [List.map_singleton, code_configureWarning, failing,
        if_pos (neg_toInt32_eq_zero.not.mpr herr)]
    · simp only [if_neg herr]
      exact ⟨_, rfl, [], (List.append_nil _).symm, rfl⟩

/-- **A call with its log**: only a refresh that fails adds to it. -/
theorem logged_exec (a : Answers) (buf : Vector UInt8 hubbleLogBufSize) (s : Logged) (c : Call) :
    ∃ log, s.exec a buf c = ((c.exec a s.world).1, ⟨(c.exec a s.world).2, log⟩) ∧
      Adds s.log log (if c.payload?.isSome then failing (c.exec a s.world).1 else []) := by
  cases c with
  | init config =>
    cases config with
    | none => exact ⟨_, rfl, [], (List.append_nil _).symm, rfl⟩
    | some config => exact logged_update a buf [] ⟨initGapParams config s.world, s.log⟩
  | start => exact ⟨_, rfl, [], (List.append_nil _).symm, rfl⟩
  | stop => exact ⟨_, rfl, [], (List.append_nil _).symm, rfl⟩
  | updateData data => exact logged_update a buf data s

end Update

/-! ### Runs -/

section Runs

variable {s t : Logged} {o : Report} {i : Event × Vector UInt8 hubbleLogBufSize}

/-- What one step adds to the log. -/
theorem logged_next (hn : loggedAdvertiser.next s i = some (o, t)) :
    advertiser.next s.world i.1 = some (o, t.world) ∧
      Adds s.log t.log (failure? i.1 o).toList := by
  obtain ⟨e, buf⟩ := i
  cases e with
  | call c a =>
    obtain ⟨log, he, hadds⟩ := logged_exec a buf ⟨{ s.world with calls := [] }, s.log⟩ c
    simp only [loggedAdvertiser, he, Option.some.injEq, Prod.mk.injEq] at hn
    obtain ⟨rfl, rfl⟩ := hn
    refine ⟨rfl, ?_⟩
    obtain ⟨ls, hls, hcode⟩ := hadds
    refine ⟨ls, hls, hcode.trans ?_⟩
    unfold failure? failing
    split_ifs <;> simp_all
  | advSetTerminated =>
    simp only [loggedAdvertiser, Option.map_eq_some_iff, Prod.mk.injEq, Prod.exists] at hn
    obtain ⟨o, w, hn, rfl, rfl⟩ := hn
    exact ⟨hn, [], (List.append_nil _).symm, rfl⟩

/-- Logging does not change what the advertiser does. -/
theorem logged_simulation : Mealy.Simulation loggedAdvertiser advertiser
    (fun s w => s.world = w) (fun x => [(x.1.1, x.2)]) where
  init := rfl
  next := by
    rintro s _ i o t - rfl hn
    exact ⟨t.world, Mealy.RunFrom.nil.snoc (logged_next hn).1, rfl⟩

/-- **The log tells the failures**: the calls are a run of the advertiser, and each refresh that
failed, and nothing else, has left a line from which its result can be read. -/
theorem log_code {h : List ((Event × Vector UInt8 hubbleLogBufSize) × Report)}
    (hr : loggedAdvertiser.Run h s) :
    advertiser.Run (h.map fun (i, o) => (i.1, o)) s.world ∧
      s.log.map LogLine.code = (failures h).map some := by
  constructor
  · obtain ⟨w, hrun, rfl⟩ := logged_simulation.run hr
    rwa [List.map_eq_flatMap]
  · refine Mealy.runFrom_invariant (I := fun h s => s.log.map LogLine.code = (failures h).map some)
      rfl ?_ hr
    intro h s i o t _ hlog hn
    obtain ⟨ls, hls, hcode⟩ := (logged_next hn).2
    rw [hls, List.map_append, hlog, hcode, failures, failures, List.filterMap_append,
      List.map_append]
    cases hf : failure? i.1 o <;> simp [hf]

end Runs

end HubbleNordic
