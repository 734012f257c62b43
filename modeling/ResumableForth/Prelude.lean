/-! The words that are defined in the language itself, as a text that is run before a program. The
control structures are immediate words: they compile a branch with an empty slot for its target,
leave the index of the slot on the stack, and fill the slot when the target is known. -/
namespace ResumableForth

def prelude : String := "( Control structures. Each one is an immediate word that patches branch targets into the )
( definition being compiled. Slots still waiting for their target hold a 0 and their index )
( is kept on the data stack until the closing word stores the real target. )

: IF IMMEDIATE [ BRANCH? ] HERE [ 0 ] ;
: ELSE IMMEDIATE [ BRANCH ] HERE [ 0 ] SWAP HERE ! ;
: THEN IMMEDIATE HERE ! ;

: BEGIN IMMEDIATE HERE ;
: UNTIL IMMEDIATE [ BRANCH? ] , ;
: AGAIN IMMEDIATE [ BRANCH ] , ;
: WHILE IMMEDIATE [ BRANCH? ] HERE [ 0 ] ;
: REPEAT IMMEDIATE [ BRANCH ] SWAP , HERE ! ;

( Logic. )

: NOT IF False ELSE True THEN ;
: <> = NOT ;

( Integer helpers. )

: NEGATE -1 * ;
: - NEGATE + ;

( Stack helpers. )

: NIP SWAP DROP ;
: TUCK SWAP OVER ;
: 2DUP OVER OVER ;
"

end ResumableForth
