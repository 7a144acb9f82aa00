import SearchRequest.Options.Validate
import SearchRequest.Error.Basic
import SearchRequest.Value.Dump
/-
Options from any value: typed options of the kind that is asked for are taken as they are, typed
options of the other kind are read again from their plain data, and everything else must be a
mapping.
-/
namespace SearchRequest.Options

/-- Options read from the entries of a mapping, or the failure that is reported for them. -/
def readEntries (write : Bool) (es : Entries) : Except Error (Options Value) :=
  match ofEntries write es with
  | .valid o => .ok o
  | .invalid first more => .error (.ofOptionFailures first more)

/-- Options read from a value, those of a request that may write when `write`. -/
def read (write : Bool) : Value → Except Error (Options Value)
  | .options o =>
    if o.write.isSome = write then .ok o
    else if (Value.options o).dumpable then readEntries write o.dump
    else .error (.misuse .kind)
  | .null => readEntries write []
  | .object es => readEntries write es
  | v => .error (.optionsNotMapping v)

/-- Typed options of the kind that is asked for are read as they are. -/
theorem read_options {write : Bool} {o : Options Value} (h : o.write.isSome = write) :
    read write (.options o) = .ok o := by
  simp [read, h]

/-- Options handed to a request, as plain data: nothing counts as no options, and typed values are
dumped. -/
def plain : Value → Value
  | .null => .object []
  | .object es => .object es
  | v => if v.isTyped then v.dump else v

/-- Options handed to a request, as plain data; typed values may have no such form. -/
def plain? (v : Value) : Except Misuse Value :=
  if v.isTyped && !v.dumpable then .error .kind else .ok (plain v)

theorem plain?_ok {v w : Value} (h : plain? v = .ok w) : w = plain v := by
  unfold plain? at h
  split at h
  · cases h
  · exact (Except.ok.inj h).symm

end SearchRequest.Options
