import TriggerWatch.Key
import TriggerWatch.Text.Split

/-!
# Keys tell documents apart

A key ends in a name for its kind of document, and the four names differ in the letter before
`.json`. Within a kind the key is found back: the device is the part before the first separator, and
the trigger is what remains after the ending is taken away.

## Main statements

- `Key.kindLetter_history` and its like — the letter that tells the kind of a key
- `Key.cooldown_inj`, `Key.trail_inj` — a key names one device and one trigger
- `Key.history_inj`, `Key.shadow_inj` — a key names one device
-/

namespace TriggerWatch.Key

/-- The letter of a key before its last five characters. -/
def kindLetter (key : String) : Option Char := key.toList.reverse[5]?

theorem kindLetter_append (a b : String) (h : 5 < b.toList.length) :
    kindLetter (a ++ b) = kindLetter b := by
  rw [kindLetter, String.toList_append, List.reverse_append,
    List.getElem?_append_left (by rwa [List.length_reverse])]
  rfl

@[simp] theorem kindLetter_history (device : String) : kindLetter (history device) = some 's' :=
  kindLetter_append device "_events.json" (by decide)

@[simp] theorem kindLetter_cooldown (device trigger : String) :
    kindLetter (cooldown device trigger) = some 'r' :=
  kindLetter_append (device ++ "/" ++ trigger) "/trigger.json" (by decide)

@[simp] theorem kindLetter_trail (device trigger : String) :
    kindLetter (trail device trigger) = some 't' :=
  kindLetter_append (device ++ "/" ++ trigger) "/audit.json" (by decide)

@[simp] theorem kindLetter_shadow (device : String) : kindLetter (shadow device) = some 'w' :=
  kindLetter_append device "_shadow.json" (by decide)

theorem ne_of_kindLetter_ne {a b : String} (h : kindLetter a ≠ kindLetter b) : a ≠ b :=
  fun he => h (congrArg kindLetter he)

theorem history_ne_shadow (device device' : String) : history device ≠ shadow device' :=
  ne_of_kindLetter_ne (by simp)

theorem cooldown_ne_shadow (device trigger device' : String) :
    cooldown device trigger ≠ shadow device' := ne_of_kindLetter_ne (by simp)

theorem trail_ne_shadow (device trigger device' : String) :
    trail device trigger ≠ shadow device' := ne_of_kindLetter_ne (by simp)

theorem history_inj {device device' : String} (h : history device = history device') :
    device = device' := (String.append_left_inj _).mp h

theorem shadow_inj {device device' : String} (h : shadow device = shadow device') :
    device = device' := (String.append_left_inj _).mp h

/-- Before the first separator stands the device, if it is free of the separator. -/
theorem cut?_device {device : String} (h : hasSeparator device = false) (rest : String) :
    Text.cut? separator (device ++ "/" ++ rest).toList = some (device.toList, rest.toList) := by
  rw [Text.cut?_eq_some_iff]
  refine ⟨?_, ?_⟩
  · simp [String.toList_append, separator]
  · simpa [hasSeparator] using h

/-- A device free of the separator and what follows it are found back in their key. -/
theorem device_inj {device device' rest rest' : String} (h : hasSeparator device = false)
    (h' : hasSeparator device' = false) (he : device ++ "/" ++ rest = device' ++ "/" ++ rest') :
    device = device' ∧ rest = rest' := by
  have hc := cut?_device h rest
  rw [he, cut?_device h' rest'] at hc
  simp only [Option.some.injEq, Prod.mk.injEq] at hc
  exact ⟨(String.toList_inj.mp hc.1).symm, (String.toList_inj.mp hc.2).symm⟩

theorem cooldown_inj {device device' trigger trigger' : String}
    (h : hasSeparator device = false) (h' : hasSeparator device' = false)
    (he : cooldown device trigger = cooldown device' trigger') :
    device = device' ∧ trigger = trigger' := device_inj h h' ((String.append_left_inj _).mp he)

theorem trail_inj {device device' trigger trigger' : String}
    (h : hasSeparator device = false) (h' : hasSeparator device' = false)
    (he : trail device trigger = trail device' trigger') :
    device = device' ∧ trigger = trigger' := device_inj h h' ((String.append_left_inj _).mp he)

end TriggerWatch.Key
