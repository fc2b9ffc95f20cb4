import HubbleNordic.Decimal

/-!
# Logging: `hubble_log` of `hubble_app_port.c`

The text is formatted into a buffer of 128 bytes, cut off to leave room for the terminator, and
pushed to the log under the severity that belongs to the level.

* `Formatted`, `vsnprintf`: what formatting comes to, and what it leaves in the buffer;
* `hubbleLog`;
* `hubbleLog_text`: a text with no terminator in it appears in the log up to its 127th byte, and
  whole if it has no more.
-/

namespace HubbleNordic

/-- The bytes of a string literal. -/
def ascii (s : String) : List UInt8 := s.toList.map Char.toUInt8

/-- `HUBBLE_LOG_BUF_SIZE`. -/
def hubbleLogBufSize : ℕ := 128

/-- `enum hubble_log_level`: the levels that the `switch` of `hubble_log` names, or another. -/
inductive HubbleLogLevel
  | debug
  | info
  | warning
  | error
  | other
  deriving DecidableEq

/-- `NRF_LOG_DEBUG`, `NRF_LOG_INFO`, `NRF_LOG_WARNING` and `NRF_LOG_ERROR`. -/
inductive NrfLogSeverity
  | debug
  | info
  | warning
  | error
  deriving DecidableEq

/-- A line of the log, with the text that `NRF_LOG_PUSH` was given. -/
structure LogLine where
  severity : NrfLogSeverity
  text : List UInt8
  deriving DecidableEq

/-- What formatting comes to: the value that `vsnprintf` returns, and the whole text. -/
structure Formatted where
  needed : Int32
  text : List UInt8

/-- A text that has been formatted. -/
def Formatted.whole (text : List UInt8) : Formatted := ⟨Int32.ofNat text.length, text⟩

/-- `buf` after `vsnprintf(buf, sizeof buf, fmt, ap)`. -/
def vsnprintf (f : Formatted) (buf : Vector UInt8 hubbleLogBufSize) : List UInt8 :=
  let text := f.text.take (hubbleLogBufSize - 1) ++ [0]
  text ++ buf.toList.drop text.length

/-- `hubble_log`; `buf` is its buffer as it was on the stack. -/
def hubbleLog (level : HubbleLogLevel) (f : Formatted) (buf : Vector UInt8 hubbleLogBufSize)
    (log : List LogLine) : Int32 × List LogLine :=
  if f.needed < 0 then (f.needed, log)
  else
    let owned := (vsnprintf f buf).takeWhile (· ≠ 0)
    match level with
    | .debug => (0, log ++ [⟨.debug, owned⟩])
    | .info => (0, log ++ [⟨.info, owned⟩])
    | .warning => (0, log ++ [⟨.warning, owned⟩])
    | .error => (0, log ++ [⟨.error, owned⟩])
    | .other => (0, log)

/-- The severity of a level's lines, if it has any. -/
def HubbleLogLevel.severity? : HubbleLogLevel → Option NrfLogSeverity
  | .debug => some .debug
  | .info => some .info
  | .warning => some .warning
  | .error => some .error
  | .other => none

theorem takeWhile_vsnprintf {f : Formatted} (buf : Vector UInt8 hubbleLogBufSize)
    (h : 0 ∉ f.text) :
    (vsnprintf f buf).takeWhile (· ≠ 0) = f.text.take (hubbleLogBufSize - 1) := by
  have hcut : ∀ b ∈ f.text.take (hubbleLogBufSize - 1), decide (b ≠ 0) = true := fun b hb =>
    decide_eq_true fun h0 => h (h0 ▸ List.mem_of_mem_take hb)
  unfold vsnprintf
  rw [List.append_assoc, List.takeWhile_append_of_pos hcut]
  simp

/-- A text as long as the buffer allows is no formatting error. -/
theorem Formatted.whole_needed {text : List UInt8} (h : text.length < 2 ^ 31) :
    ¬ (Formatted.whole text).needed < 0 := by
  rw [Int32.lt_iff_toInt_lt, Formatted.whole, Int32.toInt_ofNat_of_lt h]
  exact Int.not_lt.mpr (Int.natCast_nonneg _)

/-- **What `hubble_log` does with a text**: the terminator and the size of the buffer are all that
can cut it short. -/
theorem hubbleLog_text (level : HubbleLogLevel) {f : Formatted} (hf : ¬ f.needed < 0)
    (h : 0 ∉ f.text) (buf : Vector UInt8 hubbleLogBufSize) (log : List LogLine) :
    hubbleLog level f buf log =
      (0, log ++ level.severity?.toList.map (⟨·, f.text.take (hubbleLogBufSize - 1)⟩)) := by
  unfold hubbleLog
  rw [if_neg hf, takeWhile_vsnprintf buf h]
  cases level <;> simp [HubbleLogLevel.severity?]

end HubbleNordic
