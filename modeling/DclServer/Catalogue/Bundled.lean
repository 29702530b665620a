import DclServer.Catalogue.Layout

namespace DclServer.Catalogue

def lexicalRecords : List Record :=
  [⟨1, "f$environment", "Returns information about the current DCL command environment."⟩,
    ⟨2, "f$search",
      "Searches a directory file and returns the full file specification for a file you " ++
      "specify"⟩,
    ⟨3, "f$integer", "Returns the integer equivalent of the result of the specified expression"⟩,
    ⟨4, "f$context",
      "Specifies selection criteria for use with the F$PID function. The F$CONTEXT function " ++
      "enables the F$PID function to obtain information about processes from any node in an " ++
      "OpenVMS Cluster system."⟩,
    ⟨5, "f$csid",
      "Returns an identification number from an OpenVMS Cluster system and updates the " ++
      "context symbol to point to the current position in the system's cluster node list."⟩,
    ⟨6, "f$cvsi",
      "Converts the specified bits in the specified character string to a signed number"⟩,
    ⟨7, "f$cvtime",
      "Converts absolute or a combination time string to a string of the form yyyy-mm-dd " ++
      "hh:mm:ss.cc. The F$CVTIME function can also return information about absolute, " ++
      "combination, or delta time string."⟩,
    ⟨8, "f$cvui",
      "Extracts bit fields from character string data and converts the result to an " ++
      "unsigned number."⟩,
    ⟨9, "f$device",
      "Returns the device names of all devices on a system that meet the specified " ++
      "selection criteria."⟩,
    ⟨10, "f$directory",
      "Returns the current default directory name string. The F$DIRECTORY function has no " ++
      "arguments, but must be followed by parentheses."⟩,
    ⟨11, "f$edit",
      "Edits the character string based on the edits specified in the edit-list argument."⟩,
    ⟨12, "f$element", "Extracts one element from a string of elements."⟩,
    ⟨13, "f$extract", "Extracts the specified characters from the specified string."⟩,
    ⟨14, "f$fao",
      "Converts character and numeric input to ASCII character strings. (FAO stands for " ++
      "formatted ASCII output.) By specifying formatting instructions, you can use the " ++
      "F$FAO function to convert integer values to character strings, to insert carriage " ++
      "returns and form feeds, to insert text, and so on."⟩,
    ⟨15, "f$file_attributes", "Returns attribute information for a specified file."⟩,
    ⟨16, "f$getdvi", "Returns a specified item of information for a specified device."⟩,
    ⟨17, "f$getjpi", "Returns information about the specified process."⟩,
    ⟨18, "f$getqui",
      "Returns information about queues, including batch and print jobs currently in the " ++
      "queues, form definitions, and characteristic definitions kept in the queue database."⟩,
    ⟨19, "f$getsyi",
      "Returns status and identification information about the local system (or about a " ++
      "node in the local dual-architecture OpenVMS Cluster system, if your system is part " ++
      "of an OpenVMS Cluster)."⟩,
    ⟨20, "f$identifier",
      "Converts an alphanumeric identifier to its integer equivalent or converts an integer " ++
      "identifier to its alphanumeric equivalent. An identifier is a name or number that " ++
      "identifies a category of users. The system uses identifiers to determine a users " ++
      "access to a resource."⟩,
    ⟨21, "f$length", "Returns the length of the specified character string."⟩,
    ⟨22, "f$locate",
      "Locates a specified portion of a character string and returns as an integer the " ++
      "offset of the first character. (An offset is the position of a character or a " ++
      "substring relative to the begining of the string. The first character in a string is " ++
      "always offset position 0 from the beginning of the string.) If the substring is not " ++
      "found, F$LOCATE returns the length (the offset of the last character in the " ++
      "character string plus one) of the searched string."⟩,
    ⟨23, "f$message",
      "Returns as a character string the facility, severity, identification, and text " ++
      "associated with the specified system status code."⟩,
    ⟨24, "f$mode",
      "Returns a character string showing the mode in which a process is executing. The " ++
      "F$MODE function has no arguments, but must be followed by parentheses."⟩,
    ⟨25, "f$parse",
      "Parses a file specification and returns either the expanded file specification or " ++
      "the particular file specification field that you request"⟩,
    ⟨26, "f$pid",
      "Returns a process identification (PID) number and updates the context symbol to " ++
      "point to the current position in the systems process list."⟩,
    ⟨27, "f$privilege",
      "Returns a string value of either TRUE or FALSE, depending on whether your current " ++
      "process privileges match those specified in the argument. You can specify either the " ++
      "positive or negative version of a privilege."⟩,
    ⟨28, "f$process",
      "Obtains the current process name string. The F$PROCESS function has no arguments, " ++
      "but must be followed by parentheses."⟩,
    ⟨29, "f$setprv",
      "Enables or disables specified user privileges. The F$SETPRV function returns a list " ++
      "of keywords indicating user privileges; this list shows the status of the specified " ++
      "privileges before F$SETPRV was executed."⟩,
    ⟨30, "f$string", "Returns the string that is equivalent to the specified expression."⟩,
    ⟨31, "f$time", "Returns the current date and time in absolute time format."⟩,
    ⟨32, "f$trnlnm",
      "Translates a logical name and returns the equivalence name string or the requested " ++
      "attributes of the logical name specified."⟩,
    ⟨33, "f$type",
      "Returns the data type of a symbol. The string INTEGER is returned if the symbol is " ++
      "equated to an integer, or if the symbol is equated to a string whose characters form " ++
      "a valid integer."⟩,
    ⟨34, "f$user",
      "Returns the current user identification code (UIC) in named format as a character " ++
      "string. The F$USER function has no arguments, but must be followed by parentheses."⟩,
    ⟨35, "f$verify",
      "Returns an integer value indicating whether the procedure verification setting is " ++
      "currently on or off. If used with arguments, the F$VERIFY function can turn the " ++
      "procedure and image verification settings on or off. You must include the " ++
      "parentheses after the F$VERIFY function whether or not you specify arguments."⟩]

def commandRecords : List Record :=
  [⟨36, "DIRECTORY", "List directory contents"⟩,
    ⟨37, "SET DEFAULT", "Change directory to dirname"⟩,
    ⟨38, "SHOW DEFAULT", "Print current directory pathname"⟩,
    ⟨39, "CREATE/DIR", "Create subdirectory"⟩,
    ⟨40, "DELETE/DIR", "Delete subdirectory"⟩,
    ⟨41, "SHOW QUOTA", "Display your disk quota"⟩,
    ⟨42, "COPY", "Copy file contents from file1 to file2"⟩,
    ⟨43, "RENAME", "Move contents of file1 to file2"⟩,
    ⟨44, "PURGE", "Delete copies of file1 except for the most recent"⟩,
    ⟨45, "DELETE", "Delete <file1>, version number (;<*>) must be specified"⟩,
    ⟨46, "TYPE", "Print contents of file1 to screen"⟩,
    ⟨47, "SORT",
      "Sort file1 into file2 - if file2 is not specified, command will create another " ++
      "version of file1"⟩,
    ⟨48, "DIFF", "Compares text files and displays difference"⟩,
    ⟨49, "SHOW PROTECTION", "Show permissions on files"⟩,
    ⟨50, "PRINT", "Print a file"⟩,
    ⟨51, "LASER", "Print PostScript file (assumes .lsr extension)"⟩,
    ⟨52, "SHOW QUEUE", "Display printer queue"⟩,
    ⟨53, "SUBMIT", "Submit file1 to batch queue"⟩,
    ⟨54, "SHOW", "Show <eg process>"⟩,
    ⟨55, "SHOW SYMBOL", "Show symbol assignment"⟩,
    ⟨56, "SHOW LOGICAL", "Show logical name assignment"⟩,
    ⟨57, "SEARCH", "Search for string in file. eg Search filename \"hi there\""⟩,
    ⟨58, "STOP", "Kill something eg process"⟩,
    ⟨59, "SHOW PROC/PRIV", "display your privileges"⟩,
    ⟨60, "PIPE",
      "Pipes enable your application to receive input from any OpenVMS command that writes " ++
      "to SYS$OUTPUT"⟩,
    ⟨61, "SET", "Change a setting"⟩]

def lexicals : Section := ⟨"Lexical", lexicalRecords⟩

def commands : Section := ⟨"VMS COMMAND", commandRecords⟩

def bundledEntries : List Entry :=
  lexicals.entries ++ commands.entries

/-- The vocabulary that the server offers. Identifiers are sent to the client and stay stable. -/
def bundled : Catalogue :=
  ⟨bundledEntries, bundledEntries.map row⟩

end DclServer.Catalogue
