/-!
# Descriptions of rules

A rule is known by its identifier, its name and the sentence that a violation gives as its reason.
Examples show what it accepts, what it reports and how it corrects.
-/

namespace ParenLint

/-- What is known of a rule apart from a text. -/
structure RuleDescription where
  /-- The word by which settings and comment commands name the rule. -/
  identifier : String
  /-- The name in reports. -/
  name : String
  /-- The reason that a violation gives. -/
  reason : String
  /-- Texts without a violation. -/
  nonTriggering : List String
  /-- Texts with a violation where `↓` stands. -/
  triggering : List String
  /-- Texts before and after correction. -/
  corrections : List (String × String)
  deriving Repr

/-- Conditions of control statements need no parentheses around them. -/
def controlStatement : RuleDescription where
  identifier := "control_statement"
  name := "Control Statement"
  reason := "if,for,while,do statements shouldn't wrap their conditionals in parentheses."
  nonTriggering :=
    ["if condition \x7b\n",
      "if (a, b) == (0, 1) \x7b\n",
      "if (a || b) && (c || d) \x7b\n",
      "if (min...max).contains(value) \x7b\n",
      "if renderGif(data) \x7b\n",
      "renderGif(data)\n",
      "for item in collection \x7b\n",
      "for (key, value) in dictionary \x7b\n",
      "for (index, value) in enumerate(array) \x7b\n",
      "for var index = 0; index < 42; index++ \x7b\n",
      "guard condition else \x7b\n",
      "while condition \x7b\n",
      "\x7d while condition \x7b\n",
      "do \x7b ; \x7d while condition \x7b\n",
      "switch foo \x7b\n"]
  triggering :=
    ["↓if (condition) \x7b\n",
      "↓if(condition) \x7b\n",
      "↓if ((a || b) && (c || d)) \x7b\n",
      "↓if ((min...max).contains(value)) \x7b\n",
      "↓for (item in collection) \x7b\n",
      "↓for (var index = 0; index < 42; index++) \x7b\n",
      "↓for(item in collection) \x7b\n",
      "↓for(var index = 0; index < 42; index++) \x7b\n",
      "↓guard (condition) else \x7b\n",
      "↓while (condition) \x7b\n",
      "↓while(condition) \x7b\n",
      "\x7d ↓while (condition) \x7b\n",
      "\x7d ↓while(condition) \x7b\n",
      "do \x7b ; \x7d ↓while(condition) \x7b\n",
      "do \x7b ; \x7d ↓while (condition) \x7b\n",
      "↓switch (foo) \x7b\n"]
  corrections :=
    [("if (condition) \x7b\x7d\n", "if condition \x7b\x7d\n"),
      ("if ((a || b) && (c || d)) \x7b\x7d\n", "if (a || b) && (c || d) \x7b\x7d\n"),
      ("if ((min...max).contains(value)) \x7b\n", "if (min...max).contains(value) \x7b\n")]

end ParenLint
