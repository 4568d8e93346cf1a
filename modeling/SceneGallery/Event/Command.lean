import SceneGallery.Text.Blank
set_option autoImplicit false

namespace SceneGallery.Event

/-- Whether a line, without the blanks around it, starts with the words of a command. Upper and
lower case ASCII letters count as the same. -/
def isCommand (command line : String) : Bool :=
  (command.toList.map Char.toLower).isPrefixOf ((Text.trim line.toList).map Char.toLower)

/-- Whether a line starts with one of several commands. -/
def isAnyCommand (commands : List String) (line : String) : Bool :=
  commands.any fun command => isCommand command line

/-- The commands that only make sense during a battle. -/
def battleCommands : List String :=
  ["ControlVariables", "ControlSwitches", "ChangeHP", "Script", "ShowText([\"Luka takes ",
    "CallCommonEvent([2000])"]

/-- The commands that end an event. -/
def exitCommands : List String :=
  ["ExitEventProcessing([])", "CallCommonEvent([1999])"]

/-- The commands that are kept of a choice that is taken. -/
def shownCommands : List String :=
  ["ShowText", "ShowPicture", "PlaySE"]

/-- Whether a line shows a picture. -/
def isShowPicture (line : String) : Bool := isCommand "ShowPicture(" line

/-- Whether a line opens a block of choices. -/
def isShowChoices (line : String) : Bool := isCommand "ShowChoices" line

/-- Whether a line closes a block of choices. -/
def isChoicesEnd (line : String) : Bool := isCommand "ChoicesEnd" line

/-- Whether a line opens a branch of a block of choices. -/
def isWhen (line : String) : Bool := isCommand "When" line

/-- Whether a line opens a conditional branch. -/
def isConditionalBranch (line : String) : Bool := isCommand "ConditionalBranch" line

/-- Whether a line closes a conditional branch. -/
def isBranchEnd (line : String) : Bool := isCommand "BranchEnd" line

/-- Whether a line is a label. -/
def isLabel (line : String) : Bool := isCommand "Label(" line

/-- Whether a line sets how the text that follows is shown. -/
def isTextAttributes (line : String) : Bool := isCommand "ShowTextAttributes" line

/-- Whether a line makes sense only during a battle. -/
def isBattleOnly (line : String) : Bool := isAnyCommand battleCommands line

/-- Whether a line ends the event. -/
def isExit (line : String) : Bool := isAnyCommand exitCommands line

/-- Whether a line is kept of a choice that is taken. -/
def isShown (line : String) : Bool := isAnyCommand shownCommands line

end SceneGallery.Event
