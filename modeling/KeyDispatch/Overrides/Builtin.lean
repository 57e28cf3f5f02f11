import KeyDispatch.Overrides

/-!
# Built-in overrides

The entries that every configuration starts from.
-/

namespace KeyDispatch.Overrides

/-- Keysym names of keys that are spelled differently. Where the keysyms tell a left key from a
right one and the toolkit does not, the left one is meant. -/
def builtinAlternativeNames : List (String × String) :=
  [("Alt", "Alt_L"), ("AltGr", "Alt_R"), ("PageUp", "Prior"), ("PageDown", "Next"),
   ("ScrollLock", "Scroll_Lock"), ("CapsLock", "Caps_Lock"), ("Shift", "Shift_L"),
   ("Meta", "Meta_L"), ("Control", "Control_L"), ("OpenUrl", "OpenURL"),
   ("NumLock", "Num_Lock"), ("MicMute", "AudioMicMute"), ("VolumeMute", "AudioMute"),
   ("VolumeUp", "AudioRaiseVolume"), ("VolumeDown", "AudioLowerVolume"),
   ("MediaStop", "AudioStop"), ("MediaRecord", "AudioRecord"), ("MediaNext", "AudioNext"),
   ("MediaPause", "AudioPause"), ("MediaPlay", "AudioPlay"), ("MediaPrevious", "AudioPrev"),
   ("LaunchMedia", "AudioMedia"), ("LaunchMail", "Mail"),
   ("KeyboardLightOnOff", "KbdLightOnOff"), ("KeyboardBrightnessDown", "KbdBrightnessDown"),
   ("KeyboardBrightnessUp", "KbdBrightnessUp"), ("Enter", "KP_Enter"),
   ("Backtab", "ISO_Left_Tab")]

/-- Keypad keysyms of the keys that the toolkit reports with the keypad modifier. -/
def builtinKeypad : List (String × String) :=
  [("Space", "KP_Space"), ("Tab", "KP_Tab"), ("Enter", "KP_Enter"), ("F1", "KP_F1"),
   ("F2", "KP_F2"), ("F3", "KP_F3"), ("F4", "KP_F4"), ("Home", "KP_Home"), ("Left", "KP_Left"),
   ("Up", "KP_Up"), ("Right", "KP_Right"), ("Down", "KP_Down"), ("PageUp", "KP_Prior"),
   ("PageDown", "KP_Next"), ("End", "KP_End"), ("Clear", "KP_Begin"), ("Insert", "KP_Insert"),
   ("Delete", "KP_Delete"), ("Equal", "KP_Equal"), ("Asterisk", "KP_Multiply"),
   ("Plus", "KP_Add"), ("Comma", "KP_Separator"), ("Minus", "KP_Subtract"),
   ("Period", "KP_Decimal"), ("Slash", "KP_Divide"), ("0", "KP_0"), ("1", "KP_1"),
   ("2", "KP_2"), ("3", "KP_3"), ("4", "KP_4"), ("5", "KP_5"), ("6", "KP_6"), ("7", "KP_7"),
   ("8", "KP_8"), ("9", "KP_9")]

/-- Keys that have no sensible keysym. -/
def builtinIgnored : List String :=
  ["unknown", "MicVolumeDown", "MicVolumeUp", "No", "Ooblique", "Play", "Printer", "QuoteLeft",
   "Settings", "SysReq", "ToggleCallHangup", "TrebleDown", "TrebleUp", "VoiceDial", "Yes",
   "Zoom", "MediaTogglePlayPause", "MediaLast", "Exit", "Flip", "Guide", "Hangup", "Henkan",
   "Direction_L", "Direction_R", "Info", "LastNumberRedial", "ChannelDown", "ChannelUp",
   "Context1", "Context2", "Context3", "Context4", "BassBoost", "BassDown", "BassUp", "Call",
   "Camera", "CameraFocus", "Launch0", "Launch1", "Launch2", "Launch3", "Launch4", "Launch5",
   "Launch6", "Launch7", "Launch8", "Launch9", "LaunchA", "LaunchB", "LaunchC", "LaunchD",
   "LaunchE", "LaunchF", "LaunchG", "LaunchH"]

/-- The built-in tables. -/
def builtin : Overrides :=
  ⟨.ofList builtinAlternativeNames, .ofList builtinKeypad, addNames .empty builtinIgnored,
    .controlMeta⟩

end KeyDispatch.Overrides
